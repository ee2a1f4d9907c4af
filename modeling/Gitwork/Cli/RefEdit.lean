import Gitwork.Text.Blank

/-! # Specifications of reference updates

    `NAME=REVISION` points a reference at an object, `NAME=ref:OTHER` makes it
    symbolic, and `NAME=` removes it.  The name ends at the first equals sign;
    blanks around the name, around what follows and after `ref:` do not
    count. -/

namespace Gitwork.Cli

/-- What is to become of a reference. -/
inductive RefAction
  | point (revision : String)
  | symbolic (name : String)
  | remove
deriving DecidableEq, Repr, Inhabited

/-- One requested update. -/
structure RefEdit where
  refname : String
  action : RefAction
deriving DecidableEq, Repr, Inhabited

/-- Why a specification cannot be read. -/
inductive RefEditError
  | noEquals (spec : String)
  | noName (spec : String)
deriving DecidableEq, Repr, Inhabited

def RefEditError.message : RefEditError → String
  | noEquals spec => "Expected REF=TARGET, got '" ++ spec ++ "'"
  | noName spec => "Missing reference name in '" ++ spec ++ "'"

namespace RefAction

/-- Stands in front of the name that a symbolic reference is to hold. -/
def symbolicMark : List Char := ['r', 'e', 'f', ':']

/-- Reads what stands behind the equals sign, without blanks at its ends. -/
def ofChars (target : List Char) : RefAction :=
  if target = [] then remove
  else if symbolicMark.isPrefixOf target then
    symbolic (String.ofList (Text.trim (target.drop symbolicMark.length)))
  else point (String.ofList target)

/-- Writes what stands behind the equals sign. -/
def toText : RefAction → String
  | point revision => revision
  | symbolic name => String.ofList symbolicMark ++ name
  | remove => ""

end RefAction

namespace RefEdit

/-- Reads one specification. -/
def parse (spec : String) : Except RefEditError RefEdit :=
  match spec.toList.dropWhile (· ≠ '=') with
  | [] => .error (.noEquals spec)
  | _ :: target =>
    let name := Text.trim (spec.toList.takeWhile (· ≠ '='))
    if name = [] then .error (.noName spec)
    else .ok ⟨String.ofList name, RefAction.ofChars (Text.trim target)⟩

/-- Writes a specification. -/
def toText (e : RefEdit) : String := e.refname ++ "=" ++ e.action.toText

end RefEdit

end Gitwork.Cli
