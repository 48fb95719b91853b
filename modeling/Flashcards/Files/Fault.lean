import Flashcards.Text.Quoted

/-!
# What can go wrong with files

A request to the file tree fails for one of a few reasons, and names the path it was about. All
but one are given by the system, which numbers them; a path with the zero character in it never
gets that far.
-/

namespace Flashcards.Files

/-- Why a request to the file tree fails. -/
inductive Reason
  | notFound
  | alreadyExists
  | notDirectory
  | isDirectory
  /-- A name on the path, or the path as a whole, is longer than the system allows. -/
  | nameTooLong
  /-- The path holds the zero character, which ends a path for the system. -/
  | zeroInPath
  deriving DecidableEq, Repr

/-- A request that failed, and the path it was about as it was given. -/
structure Fault where
  reason : Reason
  path : String
  deriving DecidableEq, Repr

/-- The number by which systems know a reason. -/
def Reason.number? : Reason → Option Nat
  | .notFound => some 2
  | .alreadyExists => some 17
  | .notDirectory => some 20
  | .isDirectory => some 21
  | .nameTooLong => some 36
  | .zeroInPath => none

/-- The reason in words. -/
def Reason.message : Reason → String
  | .notFound => "No such file or directory"
  | .alreadyExists => "File exists"
  | .notDirectory => "Not a directory"
  | .isDirectory => "Is a directory"
  | .nameTooLong => "File name too long"
  | .zeroInPath => "embedded null byte"

/-- The fault in words. What the system refuses is shown with its number and the path. -/
def Fault.message (fault : Fault) : String :=
  match fault.reason.number? with
  | some number => s!"[Errno {number}] {fault.reason.message}: {Text.quoted fault.path}"
  | none => fault.reason.message

/-- Whether the system was asked at all. -/
def Fault.isRefusal (fault : Fault) : Bool := fault.reason.number?.isSome

end Flashcards.Files
