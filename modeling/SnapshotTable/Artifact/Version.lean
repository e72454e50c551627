import SnapshotTable.Data.SortedMap
import SnapshotTable.Text.Decimal

/-!
Versions and identities of artifacts. A version's text is a dotted list of numbers, then possibly
a hyphen and a qualifier. Versions are ordered by their numbers; a qualified version comes before
the unqualified one of the same numbers, and the text decides last, so only identical texts are
equal.
-/

namespace SnapshotTable

set_option autoImplicit false

structure ArtifactVersion where
  text : String
  numbers : List Nat
  qualifier : Option String
deriving DecidableEq

namespace ArtifactVersion

def splitAll (separator : Char) : List Char → List (List Char)
  | [] => [[]]
  | character :: rest =>
    if character = separator then [] :: splitAll separator rest
    else
      match splitAll separator rest with
      | part :: parts => (character :: part) :: parts
      | [] => [[character]]

/-- The text before the first hyphen, and the text after it if there is one. -/
def splitQualifier (text : List Char) : List Char × Option (List Char) :=
  match text.dropWhile (· ≠ '-') with
  | [] => (text, none)
  | _ :: qualifier => (text.takeWhile (· ≠ '-'), some qualifier)

def parse? (text : String) : Option ArtifactVersion := do
  let (base, qualifier) := splitQualifier text.toList
  let numbers ← (splitAll '.' base).mapM Text.Decimal.read?
  return ⟨text, numbers, qualifier.map String.ofList⟩

def order : ArtifactVersion → ArtifactVersion → Ordering :=
  compareLex (compareOn numbers) <|
    compareLex (compareOn (·.qualifier.isNone)) <|
      compareLex (compareOn (·.qualifier.getD "")) (compareOn text)

private theorem trans_order : Std.TransCmp order :=
  inferInstanceAs <| Std.TransCmp <|
    compareLex (compareOn numbers) <|
      compareLex (compareOn (·.qualifier.isNone)) <|
        compareLex (compareOn (·.qualifier.getD "")) (compareOn text)

instance : Ord ArtifactVersion := ⟨order⟩

instance : Std.TransOrd ArtifactVersion := trans_order

instance : Std.LawfulEqOrd ArtifactVersion where
  eq_of_compare {a b} h := by
    have parts : order a b = .eq := h
    simp only [order, compareLex_eq_eq, compareOn, Std.LawfulEqOrd.compare_eq_iff_eq] at parts
    obtain ⟨numbers, isNone, qualifier, text⟩ := parts
    cases a with | mk _ _ q => cases b with | mk _ _ r => cases q <;> cases r <;> simp_all

def insertOrdered (version : ArtifactVersion) : List ArtifactVersion → List ArtifactVersion
  | [] => [version]
  | head :: rest =>
    if (compare version head).isLE then version :: head :: rest
    else head :: insertOrdered version rest

def sort (versions : List ArtifactVersion) : List ArtifactVersion :=
  versions.foldr insertOrdered []

end ArtifactVersion

structure ArtifactId where
  name : String
  version : ArtifactVersion
deriving DecidableEq

namespace ArtifactId

instance : Ord ArtifactId := ⟨compareLex (compareOn name) (compareOn version)⟩

instance : Std.TransOrd ArtifactId :=
  inferInstanceAs (Std.TransCmp (compareLex (compareOn name) (compareOn version)))

instance : Std.LawfulEqOrd ArtifactId where
  eq_of_compare {a b} h := by
    have parts : compareLex (compareOn name) (compareOn version) a b = .eq := h
    simp only [compareLex_eq_eq, compareOn, Std.LawfulEqOrd.compare_eq_iff_eq] at parts
    cases a; cases b; simp_all

def display (artifact : ArtifactId) : String := artifact.name ++ ":" ++ artifact.version.text

end ArtifactId

end SnapshotTable
