import BootEntropy.Lib.Text

/-!
# Paths as `pathlib` splits them

A pure path is its components and whether a root stands before them. Nothing here
looks at a file system.
-/

namespace BootEntropy.Lib

set_option autoImplicit false

structure PurePath where
  absolute : Bool
  parts : List Text
  deriving DecidableEq, Repr

namespace PurePath

/-- `Path("")`, the working directory. -/
def here : PurePath := ⟨false, []⟩

def relative (parts : List Text) : PurePath := ⟨false, parts⟩

/-- `path / right` -/
def join (path right : PurePath) : PurePath :=
  if right.absolute then right else ⟨path.absolute, path.parts ++ right.parts⟩

def parent (path : PurePath) : PurePath := ⟨path.absolute, path.parts.dropLast⟩

/-- `Path(path.name)` -/
def base (path : PurePath) : PurePath := relative path.parts.getLast?.toList

/-- `Path(*parts[parts.index(part) :])`, if the part occurs. -/
def fromPart (part : Text) (path : PurePath) : Option PurePath :=
  if part ∈ path.parts then some (relative (path.parts.dropWhile (· ≠ part))) else none

theorem join_relative (path : PurePath) (parts : List Text) :
    path.join (relative parts) = ⟨path.absolute, path.parts ++ parts⟩ := rfl

theorem join_relative_injective (path : PurePath) :
    Function.Injective fun parts => path.join (relative parts) := by
  intro left right same
  exact List.append_cancel_left (congrArg PurePath.parts same)

theorem join_relative_ne_here (path : PurePath) {parts : List Text} (nonempty : parts ≠ []) :
    path.join (relative parts) ≠ here := by
  intro same
  exact nonempty (List.append_eq_nil_iff.mp (congrArg PurePath.parts same)).2

theorem from_part_absent {part : Text} {path : PurePath} (absent : part ∉ path.parts) :
    path.fromPart part = none := if_neg absent

theorem from_part_below {part : Text} {path : PurePath} (absent : part ∉ path.parts)
    (rest : List Text) :
    (path.join (relative (part :: rest))).fromPart part = some (relative (part :: rest)) := by
  have member : part ∈ path.parts ++ part :: rest :=
    List.mem_append_right _ (List.mem_cons_self ..)
  have others : ∀ other ∈ path.parts, decide (other ≠ part) = true := by
    intro other inside
    apply decide_eq_true
    rintro rfl
    exact absent inside
  rw [join_relative, fromPart, if_pos member, List.dropWhile_append_of_pos others,
    List.dropWhile_cons_of_neg (by simp)]

end PurePath

end BootEntropy.Lib
