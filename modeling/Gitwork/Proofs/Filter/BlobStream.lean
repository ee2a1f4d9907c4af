import Gitwork.Proofs.Filter.EndOfLine
import Gitwork.Proofs.Stream.Delivery

/-! # Streams of blobs

    Three cuts lie between a blob and its reader: the content is cut for the
    converter, what the converter puts out is cut into chunks, and the reader takes
    as much as it likes.  None of them can be seen: the stream delivers what
    converting the content whole gives, and then its end (`blobStream_delivers`).

    Whether a path is converted is decided for each direction by itself.  What is
    converted towards the working tree is converted towards the database as well
    (`FilterOptions.clean_of_smudge`), so content without a CR LF pair comes
    back from there as it was (`blobStream_returns`). -/

open Gitwork.Stream

namespace Gitwork

/-! ## Streamed or whole -/

namespace FilterOptions

/-- What the worker of a stream does for content, by what is known of the path. -/
def work (o : FilterOptions) (binary : Bool) (textAttr eolAttr : Option AttributeValue)
    (autocrlf : AutoCrlf) (content : Bytes) : List SinkOp :=
  if o.wantsConversion binary textAttr eolAttr autocrlf then
    (convertedPieces o.direction
      (pieces (effectiveChunkSize o.chunkSize) (content.length + 1) content)).map .writeAll
  else [.writeAll content]

/-- Content as it is, or converted whole if it is to be converted. -/
def filtered (o : FilterOptions) (binary : Bool) (textAttr eolAttr : Option AttributeValue)
    (autocrlf : AutoCrlf) (content : Bytes) : Bytes :=
  if o.wantsConversion binary textAttr eolAttr autocrlf then
    EolConverter.convertAll o.direction content
  else content

variable (o : FilterOptions) (binary : Bool) (textAttr eolAttr : Option AttributeValue)
  (autocrlf : AutoCrlf) (content : Bytes)

/-- The worker writes some buffers, and together they are what it should write. -/
theorem work_eq : ∃ buffers : List Bytes,
    o.work binary textAttr eolAttr autocrlf content = buffers.map .writeAll
      ∧ buffers.flatten = o.filtered binary textAttr eolAttr autocrlf content := by
  simp only [work, filtered]
  split
  · have hcuts := pieces_flatten (effectiveChunkSize_pos o.chunkSize) (content.length + 1) content
      (Nat.lt_succ_self _)
    refine ⟨_, rfl, ?_⟩
    rw [convertedPieces_flatten, hcuts]
  · exact ⟨[content], rfl, List.append_nil content⟩

/-- The stream of a conversion delivers its result. -/
theorem work_delivers :
    (Scripted.spawn o.chunkSize (o.work binary textAttr eolAttr autocrlf content)).Delivers
      (o.filtered binary textAttr eolAttr autocrlf content) := by
  obtain ⟨buffers, hwork, hflat⟩ := o.work_eq binary textAttr eolAttr autocrlf content
  rw [hwork, ← hflat]
  exact Scripted.spawn_delivers o.chunkSize buffers

end FilterOptions

namespace Repo

/-- What a repository says of an attribute of a path. -/
def attribute? (r : Repo) (name path : String) : Option AttributeValue :=
  Attributes.get? [r.files, r.index.entries] name path

/-- What a repository says of line ends in general. -/
def autocrlf (r : Repo) : AutoCrlf := AutoCrlf.ofSetting (r.settings.get? "core.autocrlf")

/-- What the stream of a blob of a repository has to deliver. -/
def filtered (r : Repo) (o : FilterOptions) (content : Bytes) : Bytes :=
  o.filtered (Binary.isBinary content) (r.attribute? "text" o.asPath) (r.attribute? "eol" o.asPath)
    r.autocrlf content

/-- The stream of a blob delivers what the attributes of its path make of it. -/
theorem blobStream_filtered {r : Repo} {id : Oid} {content : Bytes}
    (h : r.objects.get? id = some (.blob content)) (o : FilterOptions) :
    (r.blobStream id o).Delivers (r.filtered o content) := by
  have hwork : r.blobWork id o = o.work (Binary.isBinary content) (r.attribute? "text" o.asPath)
      (r.attribute? "eol" o.asPath) r.autocrlf content := by
    rw [Repo.blobWork, h]
    rfl
  rw [Repo.blobStream, hwork]
  exact o.work_delivers _ _ _ _ _

end Repo

/-- **Streaming a blob equals converting it whole.**  Whatever is known of the content and its
    path, and for each size of a chunk, what the worker writes is delivered as the content
    itself, or as the content converted whole where it is to be converted; and so is a blob
    of a repository, which says what is known of the path. -/
theorem blobStream_delivers (o : FilterOptions) (n : Nat) (content : Bytes) :
    (∀ binary textAttr eolAttr autocrlf,
      (Scripted.spawn n
        ({ o with chunkSize := n }.work binary textAttr eolAttr autocrlf content)).Delivers
          (if o.wantsConversion binary textAttr eolAttr autocrlf then
            EolConverter.convertAll o.direction content
          else content))
    ∧ ∀ (r : Repo) (id : Oid), r.objects.get? id = some (.blob content) →
      (r.blobStream id { o with chunkSize := n }).Delivers
        (if o.wantsConversion (Binary.isBinary content) (r.attribute? "text" o.asPath)
            (r.attribute? "eol" o.asPath) r.autocrlf then
          EolConverter.convertAll o.direction content
        else content) :=
  ⟨fun binary textAttr eolAttr autocrlf =>
      { o with chunkSize := n }.work_delivers binary textAttr eolAttr autocrlf content,
    fun _ _ hblob => Repo.blobStream_filtered hblob { o with chunkSize := n }⟩

namespace Attributes

theorem lines_nil : lines [] = [[]] := rfl

theorem addLine_nil (inTop : Bool) (acc : Macros × List AttributeRule) :
    addLine inTop acc [] = acc := by
  simp [addLine, patternWord, patternOf?]

theorem ofContent_nil (inTop : Bool) (macros : Macros) :
    ofContent inTop macros [] = (macros, []) := by
  simp [ofContent, lines_nil, addLine_nil]

/-- Without files nothing is said of any path. -/
theorem get?_nil (name path : String) : get? [[], []] name path = none := by
  simp [get?, rulesIn, Table.get?, ofContent_nil, lookup, List.zipIdx]

end Attributes

/-- A repository with a blob, and with what that is in the working tree. -/
def lineRepo : Repo :=
  { Repo.init "/r" true default "refs/heads/main" with
    objects := [(⟨"1111111111111111111111111111111111111111"⟩, .blob [97, 10, 13, 98]),
      (⟨"2222222222222222222222222222222222222222"⟩, .blob [97, 13, 10, 13, 98])]
    settings := [("core.autocrlf", "true")] }

/-- The repository says nothing about any path but that it converts both ways. -/
theorem lineRepo_says (path : String) : lineRepo.attribute? "text" path = none
    ∧ lineRepo.attribute? "eol" path = none ∧ lineRepo.autocrlf = .both :=
  ⟨Attributes.get?_nil "text" path, Attributes.get?_nil "eol" path, by decide +kernel⟩

/-- With three bytes a chunk, the converter gets the content in two pieces. -/
theorem blobStream_delivers_lineRepo :
    (lineRepo.blobStream ⟨"1111111111111111111111111111111111111111"⟩
      ⟨"a.txt", .toWorktree, false, 3⟩).Delivers [97, 13, 10, 13, 98] := by
  have h := (blobStream_delivers ⟨"a.txt", .toWorktree, false, 3⟩ 3 [97, 10, 13, 98]).2 lineRepo
    ⟨"1111111111111111111111111111111111111111"⟩ rfl
  obtain ⟨htext, heol, hautocrlf⟩ := lineRepo_says "a.txt"
  rwa [htext, heol, hautocrlf] at h

/-! ## There and back -/

namespace FilterOptions

/-- To the working tree, whatever the content is. -/
def smudge (path : String) (n : Nat) : FilterOptions := ⟨path, .toWorktree, false, n⟩

/-- To the database, whatever the content is. -/
def clean (path : String) (n : Nat) : FilterOptions := ⟨path, .toOdb, false, n⟩

variable {path : String} {n m : Nat} {binary binary' : Bool}
  {textAttr eolAttr : Option AttributeValue} {autocrlf : AutoCrlf}

/-- Towards the working tree, a path is converted if its attributes ask for CRLF, or if they
    leave it to the setting and that asks for it. -/
theorem wantsConversion_smudge :
    (smudge path n).wantsConversion binary textAttr eolAttr autocrlf = true
      ↔ textAttr ≠ some .unset ∧ (eolAttr = some (.text "crlf")
        ∨ (eolAttr ≠ some (.text "lf") ∧ autocrlf = .both)) := by
  simp only [wantsConversion, smudge, Bool.false_and, Bool.false_eq_true, if_false]
  by_cases htext : textAttr = some .unset
  · simp [htext]
  · rw [if_neg htext]
    split
    · simp [htext]
    · simp [htext]
    · next hcrlf hlf =>
        have hcrlf' : eolAttr ≠ some (.text "crlf") := hcrlf
        have hlf' : eolAttr ≠ some (.text "lf") := hlf
        simp [htext, hcrlf', hlf']

/-- Towards the database, it is converted if anything is said of it. -/
theorem wantsConversion_clean :
    (clean path n).wantsConversion binary textAttr eolAttr autocrlf = true
      ↔ textAttr ≠ some .unset ∧ ((textAttr.isSome ∧ textAttr ≠ some .unspecified)
        ∨ eolAttr.isSome ∨ autocrlf ≠ .off) := by
  simp [wantsConversion, clean, or_assoc]

/-- **What is converted towards the working tree is converted towards the database as well.** -/
theorem clean_of_smudge
    (h : (smudge path n).wantsConversion binary textAttr eolAttr autocrlf = true) :
    (clean path m).wantsConversion binary' textAttr eolAttr autocrlf = true := by
  obtain ⟨htext, hcrlf | ⟨-, hboth⟩⟩ := wantsConversion_smudge.mp h
  · exact wantsConversion_clean.mpr ⟨htext, Or.inr (Or.inl (by simp [hcrlf]))⟩
  · exact wantsConversion_clean.mpr ⟨htext, Or.inr (Or.inr (by simp [hboth]))⟩

/-- Content without a CR LF pair comes back. -/
theorem clean_smudge {content : Bytes} (hfree : ¬ [Eol.cr, Eol.lf] <:+: content) :
    (clean path m).filtered binary' textAttr eolAttr autocrlf
        ((smudge path n).filtered binary textAttr eolAttr autocrlf content) = content := by
  by_cases hout : (smudge path n).wantsConversion binary textAttr eolAttr autocrlf = true
  · have hback : (clean path m).wantsConversion binary' textAttr eolAttr autocrlf = true :=
      clean_of_smudge hout
    rw [filtered, if_pos hback, filtered, if_pos hout]
    exact (EolConverter.toOdb_toWorktree content).trans (EolConverter.toOdb_of_free hfree)
  · -- nothing was put in, and nothing is there to be taken out
    rw [filtered, filtered, if_neg hout]
    split
    · exact EolConverter.toOdb_of_free hfree
    · rfl

end FilterOptions

/-- **Smudging, then cleaning at the same path restores the content.**  Without the binary
    check, a path that is converted towards the working tree is converted towards the
    database; and whatever is known of the path, and for any two sizes of a chunk, content
    without a CR LF pair is delivered to the working tree as something that is delivered to
    the database as the content.  So it is for a blob of a repository, and for a blob with
    what was delivered, in a repository that says the same of the path. -/
theorem blobStream_returns (path : String) (n m : Nat) :
    (∀ binary binary' textAttr eolAttr autocrlf,
      (FilterOptions.smudge path n).wantsConversion binary textAttr eolAttr autocrlf = true →
      (FilterOptions.clean path m).wantsConversion binary' textAttr eolAttr autocrlf = true)
    ∧ (∀ binary binary' textAttr eolAttr autocrlf (content : Bytes),
      ¬ [Eol.cr, Eol.lf] <:+: content →
      let smudged := (FilterOptions.smudge path n).filtered binary textAttr eolAttr autocrlf content
      (Scripted.spawn n ((FilterOptions.smudge path n).work binary textAttr eolAttr autocrlf
          content)).Delivers smudged
        ∧ (Scripted.spawn m ((FilterOptions.clean path m).work binary' textAttr eolAttr autocrlf
          smudged)).Delivers content)
    ∧ ∀ (r r' : Repo) (id id' : Oid) (content : Bytes),
      r'.files = r.files → r'.index = r.index → r'.settings = r.settings →
      ¬ [Eol.cr, Eol.lf] <:+: content →
      let smudged := r.filtered (.smudge path n) content
      r.objects.get? id = some (.blob content) → r'.objects.get? id' = some (.blob smudged) →
        (r.blobStream id (.smudge path n)).Delivers smudged
        ∧ (r'.blobStream id' (.clean path m)).Delivers content := by
  refine ⟨fun _ _ _ _ _ => FilterOptions.clean_of_smudge, ?_, ?_⟩
  · intro binary binary' textAttr eolAttr autocrlf content hfree smudged
    -- the worker of the way back is given what came out of the way there
    have hback := (FilterOptions.clean path m).work_delivers binary' textAttr eolAttr autocrlf
      smudged
    rw [FilterOptions.clean_smudge hfree] at hback
    exact ⟨(FilterOptions.smudge path n).work_delivers binary textAttr eolAttr autocrlf content,
      hback⟩
  · intro r r' id id' content hfiles hindex hsettings hfree smudged hblob hblob'
    have hsame : r'.filtered (.clean path m) smudged = content := by
      rw [Repo.filtered, Repo.attribute?, Repo.attribute?, Repo.autocrlf, hfiles, hindex, hsettings]
      exact FilterOptions.clean_smudge hfree
    have hback := Repo.blobStream_filtered hblob' (.clean path m)
    rw [hsame] at hback
    exact ⟨Repo.blobStream_filtered hblob (.smudge path n), hback⟩

/-- The CR that was put in is taken out again, and the CR by itself is left. -/
theorem blobStream_returns_lineRepo :
    (lineRepo.blobStream ⟨"1111111111111111111111111111111111111111"⟩
      (.smudge "a.txt" 3)).Delivers [97, 13, 10, 13, 98]
    ∧ (lineRepo.blobStream ⟨"2222222222222222222222222222222222222222"⟩
      (.clean "a.txt" 2)).Delivers [97, 10, 13, 98] := by
  have hfree : ¬ [Eol.cr, Eol.lf] <:+: ([97, 10, 13, 98] : Bytes) := by decide
  have hsmudged : lineRepo.filtered (.smudge "a.txt" 3) [97, 10, 13, 98] = [97, 13, 10, 13, 98] := by
    obtain ⟨htext, heol, hautocrlf⟩ := lineRepo_says "a.txt"
    show FilterOptions.filtered _ _ (lineRepo.attribute? "text" "a.txt")
      (lineRepo.attribute? "eol" "a.txt") lineRepo.autocrlf _ = _
    rw [htext, heol, hautocrlf]
    rfl
  have h := (blobStream_returns "a.txt" 3 2).2.2 lineRepo lineRepo
    ⟨"1111111111111111111111111111111111111111"⟩ ⟨"2222222222222222222222222222222222222222"⟩
    [97, 10, 13, 98] rfl rfl rfl hfree rfl
  rw [hsmudged] at h
  exact h rfl

end Gitwork
