import Gitwork.Handler.Call

/-! # Traces

    A trace tells the calls of an operation in short: how often progress is
    told depends on how objects are packed, so a run of calls at one of these
    sites is told in one line, by what does not depend on it. -/

namespace Gitwork

/-- What a run of progress calls amounts to. -/
structure ProgressRun where
  site : CallSite
  /-- Whether the number of objects never fell. -/
  monotonic : Bool
  /-- Whether it was the total at the end. -/
  complete : Bool
  /-- The number of objects at the end. -/
  last : Nat
deriving DecidableEq, Repr, Inhabited

inductive TraceLine
  | call (c : Call)
  | progress (run : ProgressRun)
deriving DecidableEq, Repr, Inhabited

namespace Call

/-- The numbers of objects that a progress call tells: those there are, and
    all of them. -/
def objects? : Call → Option (Nat × Nat)
  | transferProgress p => some (p.receivedObjects, p.totalObjects)
  | pushTransferProgress p => some (p.current, p.total)
  | _ => none

end Call

/-- Adds a call to a trace whose newest line comes first. -/
def TraceLine.add (trace : List TraceLine) (c : Call) : List TraceLine :=
  match c.objects? with
  | none => .call c :: trace
  | some (now, total) =>
    match trace with
    | .progress run :: rest =>
      if run.site = c.site then
        .progress ⟨c.site, run.monotonic && run.last ≤ now, now = total, now⟩ :: rest
      else .progress ⟨c.site, true, now = total, now⟩ :: trace
    | _ => .progress ⟨c.site, true, now = total, now⟩ :: trace

/-- The trace of calls, both with the oldest first. -/
def trace (calls : List Call) : List TraceLine := (calls.foldl TraceLine.add []).reverse

end Gitwork
