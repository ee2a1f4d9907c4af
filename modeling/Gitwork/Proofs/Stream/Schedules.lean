import Gitwork.Proofs.Stream.Views
import Gitwork.Proofs.Stream.Portions

/-! # What the reader sees does not depend on the schedule

    Two runs of one worker in which the reader asks for the same show it the same:
    the answers, the state and what is retained after each of them.  Both follow the
    shelf of `Supplies` and `Serves`, in which there is no schedule.

    A request stands for both ways of reading, into a new buffer or into one of the
    caller's; what a read returns is the same.

    The rest is said of each run by itself.  From the first close on nothing is
    answered any more.  As long as there is none, reads get portions of the chunks of
    the writes, each from one chunk; and two workers of which none was told of a
    close have seen the same, as far as both have got. -/

namespace Gitwork.Stream

variable {σ : Type}

/-- **Scheduling cannot be seen by the reader.**  Of any worker, and any size of a chunk:

    * two runs with the same requests, all of them answered, have the same views, and a run
      with more requests has these views and more; if neither reader has closed the stream,
      the writes of one worker are the first writes of the other, with the same outcomes;
    * a view holds what its request returns, and there is one for each request;
    * a close, and what comes after it, finds the stream closed with nothing retained, and
      each read after it is refused, a read of nothing too;
    * before a close, reads get the portions of the chunks, and what they leave is retained
      or waits in the channel; the chunk of a write is as much of its data as a chunk can
      hold, and a buffer that is written to its end is cut into chunks. -/
theorem schedules_agree (act : Producer σ) (n : Nat) (s : σ) :
    (∀ moves l moves' l',
      (Ledger.spawn s).play act (effectiveChunkSize n) moves = some l →
      (Ledger.spawn s).play act (effectiveChunkSize n) moves' = some l' →
      (l.config.phase = .idle → l'.config.phase = .idle →
        (asked moves = asked moves' →
          (Ledger.spawn s).views act (effectiveChunkSize n) moves
            = (Ledger.spawn s).views act (effectiveChunkSize n) moves')
        ∧ (asked moves <+: asked moves' →
          (Ledger.spawn s).views act (effectiveChunkSize n) moves
            <+: (Ledger.spawn s).views act (effectiveChunkSize n) moves'))
      ∧ (l.config.closedByCaller = false → l'.config.closedByCaller = false →
        l.writes <+: l'.writes ∨ l'.writes <+: l.writes))
    ∧ ∀ moves l, (Ledger.spawn s).play act (effectiveChunkSize n) moves = some l →
      (l.served = ((Ledger.spawn s).views act (effectiveChunkSize n) moves).map
          (fun v => (v.request, v.answer))
        ∧ (l.config.phase = .idle →
          ((Ledger.spawn s).views act (effectiveChunkSize n) moves).map (·.request)
            = asked moves))
      ∧ (∀ before v after,
        (Ledger.spawn s).views act (effectiveChunkSize n) moves = before ++ v :: after →
        v.request = .close → ∀ w ∈ v :: after, w.state = .closed ∧ w.retained = 0
          ∧ ∀ max, w.request = .read max → w.answer = .error .streamClosed)
      ∧ (l.config.closedByCaller = false →
        portions (chunks l.writes) ((pieces l.served).map (·.1))
            = ((pieces l.served).map (·.2),
                remnant (l.config.remainder.drop l.config.offset)
                  ++ remnant (waiting l.config.slot))
        ∧ (∀ w ∈ l.writes, writtenPart w = w.1.take (effectiveChunkSize n))
        ∧ ∀ before ws after data, l.writes = before ++ ws ++ after → Series data ws →
          ∃ cs, Cut (effectiveChunkSize n) data cs
            ∧ chunks l.writes = chunks before ++ cs ++ chunks after) := by
  have hsize := effectiveChunkSize_pos n
  have hrequests : ∀ moves l, (Ledger.spawn s).play act (effectiveChunkSize n) moves = some l →
      l.config.phase = .idle →
      ((Ledger.spawn s).views act (effectiveChunkSize n) moves).map (·.request) = asked moves := by
    intro moves l hrun hidle
    have hnone : l.pending = [] := if_pos hidle
    have hasked := (Ledger.play_served hrun).2
    rw [hnone, List.append_nil] at hasked
    exact hasked.symm
  have hfurther : ∀ moves l moves' l',
      (Ledger.spawn s).play act (effectiveChunkSize n) moves = some l →
      (Ledger.spawn s).play act (effectiveChunkSize n) moves' = some l' →
      l.config.phase = .idle → l'.config.phase = .idle → asked moves <+: asked moves' →
      (Ledger.spawn s).views act (effectiveChunkSize n) moves
        <+: (Ledger.spawn s).views act (effectiveChunkSize n) moves' := by
    intro moves l moves' l' hrun hrun' hidle hidle' hasked
    obtain ⟨b, hfollows, -⟩ := (Stands.spawn s).play hsize hrun
    obtain ⟨b', hfollows', -⟩ := (Stands.spawn s).play hsize hrun'
    refine hfollows.further hfollows' ?_
    rw [hrequests moves l hrun hidle, hrequests moves' l' hrun' hidle']
    exact hasked
  constructor
  · intro moves l moves' l' hrun hrun'
    refine ⟨fun hidle hidle' => ⟨fun hasked => ?_, hfurther moves l moves' l' hrun hrun' hidle hidle'⟩,
      fun hopen hopen' => ?_⟩
    · -- each has the views of the other
      have hthere := hfurther moves l moves' l' hrun hrun' hidle hidle' (hasked ▸ List.prefix_rfl)
      have hback := hfurther moves' l' moves l hrun' hrun hidle' hidle (hasked ▸ List.prefix_rfl)
      exact hthere.eq_of_length_le hback.length_le
    · obtain ⟨t, hpath, -⟩ := ((Recorded.spawn s).play hrun hopen).path
      obtain ⟨t', hpath', -⟩ := ((Recorded.spawn s).play hrun' hopen').path
      exact hpath.comparable hpath'
  · intro moves l hrun
    refine ⟨⟨(Ledger.play_served hrun).1, hrequests moves l hrun⟩, ?_, ?_⟩
    · obtain ⟨b, hfollows, -⟩ := (Stands.spawn s).play hsize hrun
      exact hfollows.closed (.new s)
    · intro hopen
      have h := (Portioned.spawn s).play hrun hopen
      refine ⟨h.portioned, ?_, ?_⟩
      · intro w hw
        rw [writtenPart, h.writes w hw, Nat.min_comm]
        exact List.take_eq_take_min.symm
      · intro before ws after data hsplit hseries
        have hcut := hseries.cut hsize fun w hw =>
          h.writes w (hsplit ▸ List.mem_append_left _ (List.mem_append_right _ hw))
        refine ⟨chunks ws, hcut, ?_⟩
        rw [hsplit, chunks_append, chunks_append]

/-- A worker that writes one buffer to its end, and of another one only once. -/
def twoBuffers : Script := .ofOps [.writeAll [1, 2, 3], .writeOnce [4, 5]]

/-- The worker moves whenever it can. -/
def workerFirst : List Move :=
  [.worker, .worker, .worker, .ask (.read 1), .reader, .worker, .worker, .worker, .reader,
    .ask (.read 9), .reader, .ask (.read 9), .reader, .worker, .worker, .reader,
    .ask .close, .reader, .worker, .reader, .reader, .reader, .ask (.read 0)]

/-- The reader moves whenever it can. -/
def readerFirst : List Move :=
  [.ask (.read 1), .worker, .worker, .reader, .reader, .ask (.read 9), .reader,
    .ask (.read 9), .worker, .worker, .reader, .reader,
    .ask .close, .reader, .worker, .worker, .worker, .worker, .reader, .ask (.read 0)]

/-- The two schedules show the reader the same, and only the worker can tell them apart,
    by what becomes of its last write. -/
theorem schedules_agree_twoBuffers :
    (Ledger.spawn twoBuffers).views (Script.act 2) 2 workerFirst
        = (Ledger.spawn twoBuffers).views (Script.act 2) 2 readerFirst
      ∧ ∃ l l', (Ledger.spawn twoBuffers).play (Script.act 2) 2 workerFirst = some l
        ∧ (Ledger.spawn twoBuffers).play (Script.act 2) 2 readerFirst = some l'
        ∧ l.served.map (·.2)
          = [.bytes [1], .bytes [2], .bytes [3], .closed, .error .streamClosed]
        ∧ l.writes = [([1, 2, 3], .accepted 2), ([3], .accepted 1), ([4, 5], .accepted 2)]
        ∧ l'.writes = [([1, 2, 3], .accepted 2), ([3], .accepted 1), ([4, 5], .brokenPipe)] :=
  ⟨(((schedules_agree (Script.act 2) 2 twoBuffers).1 workerFirst _ readerFirst _ rfl rfl).1
    rfl rfl).1 rfl, _, _, rfl, rfl, rfl, rfl, rfl⟩

end Gitwork.Stream
