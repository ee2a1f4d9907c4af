import Gitwork.Handler.Call
import Gitwork.Text.Utf8

/-! # Merging texts

    Two versions of a text with a common ancestor are merged line by line.  A
    stretch that only one side has changed takes that side's lines.  Changes
    that touch each other make one conflict, unless they are the same. -/

namespace Gitwork.Merge

/-- A line with the LF at its end. -/
abbrev Line := Bytes

/-- Cuts a text behind each LF. -/
def lines : Bytes → List Line
  | [] => []
  | b :: rest =>
    if b = 10 then [b] :: lines rest
    else
      match lines rest with
      | [] => [[b]]
      | l :: ls => (b :: l) :: ls

/-- Some lines of the ancestor, by place and number, and what stands for
    them. -/
structure Hunk where
  start : Nat
  count : Nat
  new : List Line
deriving DecidableEq, Repr, Inhabited

def Hunk.stop (h : Hunk) : Nat := h.start + h.count

/-- The lengths of the longest common parts of a list that starts with `a`
    and all ends of another one, given those for the rest of the list. -/
def commonRow (a : Line) : List Line → List Nat → List Nat
  | [], _ => [0]
  | b :: bs, below =>
    let row := commonRow a bs (below.drop 1)
    (if a = b then (below.drop 1).headD 0 + 1 else max (below.headD 0) (row.headD 0)) :: row

/-- The rows of all ends of the first list. -/
def commonTable (as bs : List Line) : List (List Nat) :=
  as.foldr (fun a rows => commonRow a bs (rows.headD []) :: rows) [List.replicate (bs.length + 1) 0]

/-- The changes from one list of lines to another; `open?` is the one that is
    being collected, its lines in reverse. -/
def hunksFrom : Nat → Nat → Option Hunk → List Line → List Line → List (List Nat) → List Hunk
  | 0, _, open?, _, _, _ => open?.toList
  | fuel + 1, at_, open?, as, bs, rows =>
    let grown := open?.getD ⟨at_, 0, []⟩
    let deeper := rows.drop 1
    match as, bs with
    | [], [] => open?.toList
    | [], b :: bs => hunksFrom fuel at_ (some { grown with new := b :: grown.new }) [] bs rows
    | _ :: as, [] =>
      hunksFrom fuel (at_ + 1) (some { grown with count := grown.count + 1 }) as [] deeper
    | a :: as, b :: bs =>
      if a = b then open?.toList ++ hunksFrom fuel (at_ + 1) none as bs (deeper.map (·.drop 1))
      else if ((deeper.headD []).headD 0) < ((rows.headD []).drop 1).headD 0 then
        hunksFrom fuel at_ (some { grown with new := b :: grown.new }) (a :: as) bs
          (rows.map (·.drop 1))
      else
        hunksFrom fuel (at_ + 1) (some { grown with count := grown.count + 1 }) as (b :: bs) deeper

/-- The changes from one list of lines to another. -/
def hunks (as bs : List Line) : List Hunk :=
  (hunksFrom (as.length + bs.length + 1) 0 none as bs (commonTable as bs)).map fun h =>
    { h with new := h.new.reverse }

/-- A stretch of a merged text. -/
inductive Piece
  | clean (lines : List Line)
  | conflict (ours theirs : List Line)
deriving DecidableEq, Repr, Inhabited

/-- The lines of the ancestor from one place up to another. -/
def slice (base : List Line) (start stop : Nat) : List Line := (base.drop start).take (stop - start)

/-- The lines of a stretch of the ancestor after some changes in it. -/
def replaced (base : List Line) (start stop : Nat) : List Hunk → List Line
  | [] => slice base start stop
  | h :: hs => slice base start h.start ++ h.new ++ replaced base h.stop stop hs

/-- The changes that touch a stretch, given how far it reaches so far. -/
def touching : Nat → Nat → List Hunk → List Hunk → Nat × (List Hunk × List Hunk)
  | 0, stop, ours, theirs => (stop, ours, theirs)
  | fuel + 1, stop, ours, theirs =>
    match ours, theirs with
    | h :: ours', _ =>
      if h.start ≤ stop then touching fuel (max stop h.stop) ours' theirs
      else touchingTheirs fuel stop ours theirs
    | [], _ => touchingTheirs fuel stop ours theirs
where
  touchingTheirs (fuel stop : Nat) (ours theirs : List Hunk) : Nat × (List Hunk × List Hunk) :=
    match theirs with
    | h :: theirs' =>
      if h.start ≤ stop then touching fuel (max stop h.stop) ours theirs' else (stop, ours, theirs)
    | [] => (stop, ours, theirs)

/-- Removes lines that both sides of a conflict share at its ends. -/
def trimmed (ours theirs : List Line) : List Piece :=
  let rec common : List Line → List Line → Nat
    | a :: as, b :: bs => if a = b then common as bs + 1 else 0
    | _, _ => 0
  let n := common ours theirs
  let os := ours.drop n
  let ts := theirs.drop n
  let m := common os.reverse ts.reverse
  [.clean (ours.take n), .conflict (os.take (os.length - m)) (ts.take (ts.length - m)),
    .clean (os.drop (os.length - m))]

/-- Goes through the changes of both sides from a place of the ancestor on. -/
def combine (base : List Line) : Nat → Nat → List Hunk → List Hunk → List Piece
  | 0, _, _, _ => []
  | fuel + 1, place, ours, theirs =>
    match ours, theirs with
    | [], [] => [.clean (base.drop place)]
    | h :: ours, [] =>
      .clean (slice base place h.start ++ h.new) :: combine base fuel h.stop ours []
    | [], h :: theirs =>
      .clean (slice base place h.start ++ h.new) :: combine base fuel h.stop [] theirs
    | a :: ours, b :: theirs =>
      if a.stop < b.start then
        .clean (slice base place a.start ++ a.new) :: combine base fuel a.stop ours (b :: theirs)
      else if b.stop < a.start then
        .clean (slice base place b.start ++ b.new) :: combine base fuel b.stop (a :: ours) theirs
      else if a = b then
        .clean (slice base place a.start ++ a.new) :: combine base fuel a.stop ours theirs
      else
        let start := min a.start b.start
        let (stop, ours', theirs') :=
          touching (ours.length + theirs.length + 1) (max a.stop b.stop) ours theirs
        let mine := (a :: ours).take (ours.length + 1 - ours'.length)
        let other := (b :: theirs).take (theirs.length + 1 - theirs'.length)
        .clean (slice base place start)
          :: trimmed (replaced base start stop mine) (replaced base start stop other)
          ++ combine base fuel stop ours' theirs'

/-- The merge of two versions of a text. -/
def pieces (base ours theirs : Bytes) : List Piece :=
  let b := lines base
  let os := hunks b (lines ours)
  let ts := hunks b (lines theirs)
  combine b (os.length + ts.length + 1) 0 os ts

/-- The merged text, if there is no conflict. -/
def clean? : List Piece → Option Bytes
  | [] => some []
  | .clean ls :: rest => (clean? rest).map (ls.flatten ++ ·)
  | .conflict .. :: _ => none

/-- Lines in front of a marker. -/
def ended (ls : List Line) : Bytes :=
  let text := ls.flatten
  if text = [] ∨ text.getLast? = some 10 then text else text ++ [10]

/-- The text with both sides of each conflict between markers. -/
def marked (ourLabel theirLabel : String) (ps : List Piece) : Bytes :=
  ps.flatMap fun
    | .clean ls => ls.flatten
    | .conflict ours theirs =>
      Text.encodeUtf8 ("<<<<<<< " ++ ourLabel ++ "\n") ++ ended ours
        ++ Text.encodeUtf8 "=======\n" ++ ended theirs
        ++ Text.encodeUtf8 (">>>>>>> " ++ theirLabel ++ "\n")

end Gitwork.Merge
