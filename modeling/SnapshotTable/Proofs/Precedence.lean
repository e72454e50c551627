import Mathlib.Data.List.Forall2
import Mathlib.Data.List.Sort
import Mathlib.Data.List.TakeWhile
import SnapshotTable.Artifact.Catalogue

/-!
The order of versions, told from their texts. A text that is read as a version spells its numbers
and its qualifier. The first difference among the numbers decides, then the qualifier, then the text
as it stands; any two versions compare, so a list of versions has one ascending arrangement.
-/

namespace SnapshotTable

set_option autoImplicit false

theorem mapM_eq_some_iff {α β : Type} {read : α → Option β} {items : List α} {values : List β} :
    items.mapM read = some values ↔
      List.Forall₂ (fun item value => read item = some value) items values := by
  induction items generalizing values with
  | nil => simp [eq_comm]
  | cons item items induction =>
    simp only [List.mapM_cons, Option.bind_eq_bind, Option.bind_eq_some_iff, Option.pure_def,
      Option.some.injEq, List.forall₂_cons_left_iff, induction]
    grind

namespace ArtifactVersion

theorem splitAll_eq_splitOn (separator : Char) (text : List Char) :
    splitAll separator text = text.splitOn separator := by
  induction text with
  | nil => rfl
  | cons character rest induction =>
    rw [List.splitOn_cons_eq_if_modifyHead, splitAll, induction]
    by_cases same : character = separator
    · simp [same]
    · rw [if_neg same, if_neg (by simpa using same)]
      cases split : rest.splitOn separator with
      | nil => exact (List.splitOn_ne_nil _ _ split).elim
      | cons part parts => rfl

def ending : Option (List Char) → List Char
  | none => []
  | some qualifier => '-' :: qualifier

theorem splitQualifier_append {base : List Char} (clean : '-' ∉ base)
    (qualifier : Option (List Char)) :
    splitQualifier (base ++ ending qualifier) = (base, qualifier) := by
  have all : ∀ character ∈ base, decide (character ≠ '-') := by
    intro character member
    exact decide_eq_true fun same => clean (same ▸ member)
  unfold splitQualifier
  rw [List.dropWhile_append_of_pos all, List.takeWhile_append_of_pos all]
  cases qualifier <;> simp [ending]

theorem append_splitQualifier (text : List Char) : '-' ∉ (splitQualifier text).1 ∧
    text = (splitQualifier text).1 ++ ending (splitQualifier text).2 := by
  have parts : text.takeWhile (· ≠ '-') ++ text.dropWhile (· ≠ '-') = text :=
    List.takeWhile_append_dropWhile
  have clean : '-' ∉ text.takeWhile (· ≠ '-') := by
    intro member
    simpa using List.mem_takeWhile_imp member
  have stop := List.head?_dropWhile_not (fun character => decide (character ≠ '-')) text
  unfold splitQualifier
  split
  · rename_i unqualified
    rw [unqualified, List.append_nil] at parts
    exact ⟨parts ▸ clean, by simp [ending]⟩
  · rename_i hyphen qualifier qualified
    rw [qualified] at parts stop
    obtain rfl : hyphen = '-' := by simpa using stop
    exact ⟨clean, parts.symm⟩

/-- The text is made of the numbers, with dots between them, and the qualifier after a hyphen. -/
def Spelled (version : ArtifactVersion) : Prop :=
  ∃ parts, parts ≠ [] ∧ List.Forall₂ Text.Decimal.Spells parts version.numbers ∧
    version.text.toList = ['.'].intercalate parts ++ ending (version.qualifier.map String.toList)

theorem not_mem_intercalate {character separator : Char} (other : character ≠ separator)
    {parts : List (List Char)} (free : ∀ part ∈ parts, character ∉ part) :
    character ∉ [separator].intercalate parts := by
  induction parts with
  | nil => simp
  | cons part parts induction =>
    have rest := induction fun part member => free part (List.mem_cons_of_mem _ member)
    cases parts with
    | nil => simpa using free
    | cons next parts =>
      rw [List.intercalate_cons_cons]
      simp only [List.mem_append, List.mem_singleton, not_or]
      exact ⟨⟨free part List.mem_cons_self, other⟩, rest⟩

theorem not_mem_of_spells {parts : List (List Char)} {numbers : List Nat} {character : Char}
    (spelled : List.Forall₂ Text.Decimal.Spells parts numbers) (noSign : character ≠ '+')
    (noDigit : ¬character.isDigit) : ∀ part ∈ parts, character ∉ part := by
  intro part member
  induction spelled with
  | nil => contradiction
  | cons head _ induction =>
    rcases List.mem_cons.1 member with rfl | member
    · exact head.not_mem noSign noDigit
    · exact induction member

theorem parse?_eq_some_iff {text : String} {version : ArtifactVersion} :
    parse? text = some version ↔ version.text = text ∧ version.Spelled := by
  unfold parse?
  simp only [splitAll_eq_splitOn, Option.bind_eq_bind, Option.bind_eq_some_iff, Option.pure_def,
    Option.some.injEq, mapM_eq_some_iff, Text.Decimal.read?_eq_some_iff]
  constructor
  · intro found
    obtain ⟨numbers, read, rfl⟩ := found
    have split := (append_splitQualifier text.toList).2
    refine ⟨rfl, _, List.splitOn_ne_nil _ _, read, ?_⟩
    simpa [List.intercalate_splitOn, Function.comp_def] using split
  · intro spelled
    obtain ⟨rfl, parts, nonempty, read, spells⟩ := spelled
    -- no number is written with a hyphen or a dot, so the text falls apart in one way only
    have noHyphen : '-' ∉ ['.'].intercalate parts :=
      not_mem_intercalate (by decide) (not_mem_of_spells read (by decide) (by decide))
    have noDot : ∀ part ∈ parts, '.' ∉ part := not_mem_of_spells read (by decide) (by decide)
    rw [spells, splitQualifier_append noHyphen]
    refine ⟨version.numbers, ?_, ?_⟩
    · rw [List.splitOn_intercalate '.' noDot nonempty]
      exact read
    · cases version with
      | mk text numbers qualifier => cases qualifier <;> simp

/-- The first difference decides: the lesser number, or the end of the numbers; then having a
qualifier, and the lesser qualifier; then the lesser text. -/
inductive Precedes (first second : ArtifactVersion) : Prop
  | component {shared rest others : List Nat} {lesser greater : Nat}
      (left : first.numbers = shared ++ lesser :: rest)
      (right : second.numbers = shared ++ greater :: others) (lower : lesser < greater)
  | ended {next : Nat} {rest : List Nat} (longer : second.numbers = first.numbers ++ next :: rest)
  | qualified (same : first.numbers = second.numbers) (left : first.qualifier.isSome)
      (right : second.qualifier = none)
  | qualifier {lesser greater : String} (same : first.numbers = second.numbers)
      (left : first.qualifier = some lesser) (right : second.qualifier = some greater)
      (lower : lesser < greater)
  | text (same : first.numbers = second.numbers) (alike : first.qualifier = second.qualifier)
      (lower : first.text < second.text)

theorem compare_numbers_eq_lt {left right : List Nat} : compare left right = .lt ↔
    (∃ shared rest others lesser greater, left = shared ++ lesser :: rest ∧
      right = shared ++ greater :: others ∧ lesser < greater) ∨
    ∃ next rest, right = left ++ next :: rest := by
  induction left generalizing right with
  | nil =>
    cases right with
    | nil => simp
    | cons next rest => simp
  | cons number left induction =>
    cases right with
    | nil => simp
    | cons other right =>
      rw [List.compare_cons_cons, Ordering.then_eq_lt, induction, Std.compare_eq_lt,
        Std.LawfulEqOrd.compare_eq_iff_eq]
      constructor
      · intro order
        rcases order with lower | ⟨rfl, differ | ⟨next, rest, rfl⟩⟩
        · exact Or.inl ⟨[], left, right, number, other, rfl, rfl, lower⟩
        · obtain ⟨shared, rest, others, lesser, greater, rfl, rfl, lower⟩ := differ
          exact Or.inl ⟨number :: shared, rest, others, lesser, greater, rfl, rfl, lower⟩
        · exact Or.inr ⟨next, rest, rfl⟩
      · intro order
        rcases order with differ | longer
        · obtain ⟨shared, rest, others, lesser, greater, leftIs, rightIs, lower⟩ := differ
          cases shared with
          | nil => grind
          | cons head shared => grind
        · grind

theorem compare_text_eq_lt {left right : String} : compare left right = .lt ↔ left < right :=
  compareOfLessAndEq_eq_lt

def compareQualifiers (left right : Option String) : Ordering :=
  (compare left.isNone right.isNone).then (compare (left.getD "") (right.getD ""))

theorem compareQualifiers_eq_lt {left right : Option String} :
    compareQualifiers left right = .lt ↔ left.isSome ∧ right = none ∨
      ∃ lesser greater, left = some lesser ∧ right = some greater ∧ lesser < greater := by
  have present : compare false true = .lt := rfl
  have absent : compare true false = .gt := rfl
  unfold compareQualifiers
  cases left <;> cases right <;>
    simp [compare_text_eq_lt, present, absent]

theorem compareQualifiers_eq_eq {left right : Option String} :
    compareQualifiers left right = .eq ↔ left = right := by
  unfold compareQualifiers
  cases left <;> cases right <;> simp [Ordering.then_eq_eq]

theorem compare_eq_then (first second : ArtifactVersion) : compare first second =
    (compare first.numbers second.numbers).then
      ((compareQualifiers first.qualifier second.qualifier).then
        (compare first.text second.text)) := by
  rw [compareQualifiers, Ordering.then_assoc]
  rfl

theorem compare_eq_lt_iff {first second : ArtifactVersion} :
    compare first second = .lt ↔ first.Precedes second := by
  rw [compare_eq_then, Ordering.then_eq_lt, Ordering.then_eq_lt, compare_numbers_eq_lt,
    compareQualifiers_eq_lt, compareQualifiers_eq_eq, compare_text_eq_lt,
    Std.LawfulEqOrd.compare_eq_iff_eq]
  constructor
  · intro lower
    rcases lower with (⟨_, _, _, _, _, left, right, lower⟩ | ⟨_, _, longer⟩) |
      ⟨same, (⟨left, right⟩ | ⟨_, _, left, right, lower⟩) | ⟨alike, lower⟩⟩
    · exact .component left right lower
    · exact .ended longer
    · exact .qualified same left right
    · exact .qualifier same left right lower
    · exact .text same alike lower
  · intro precedes
    cases precedes with
    | component left right lower => exact .inl (.inl ⟨_, _, _, _, _, left, right, lower⟩)
    | ended longer => exact .inl (.inr ⟨_, _, longer⟩)
    | qualified same left right => exact .inr ⟨same, .inl (.inl ⟨left, right⟩)⟩
    | qualifier same left right lower => exact .inr ⟨same, .inl (.inr ⟨_, _, left, right, lower⟩)⟩
    | text same alike lower => exact .inr ⟨same, .inr ⟨alike, lower⟩⟩

def AtMost (first second : ArtifactVersion) : Prop := (compare first second).isLE

instance : DecidableRel AtMost :=
  fun first second => inferInstanceAs (Decidable ((compare first second).isLE = true))

instance : IsTrans ArtifactVersion AtMost where
  trans _ _ _ := Std.TransCmp.isLE_trans

instance : Std.Total AtMost where
  total first second := by
    have swapped : compare second first = (compare first second).swap := Std.OrientedCmp.eq_swap
    unfold AtMost
    rw [swapped]
    cases compare first second <;> decide

theorem AtMost.refl (version : ArtifactVersion) : version.AtMost version := by
  have same : compare version version = .eq := Std.ReflCmp.compare_self
  unfold AtMost
  rw [same]
  rfl

theorem AtMost.of_lt {first second : ArtifactVersion} (lower : compare first second = .lt) :
    first.AtMost second := by
  unfold AtMost
  rw [lower]
  rfl

theorem AtMost.antisymm {first second : ArtifactVersion} (le : first.AtMost second)
    (ge : second.AtMost first) : first = second :=
  Std.LawfulEqOrd.eq_of_compare (Std.OrientedCmp.isLE_antisymm le ge)

theorem insertOrdered_eq_orderedInsert (version : ArtifactVersion)
    (others : List ArtifactVersion) :
    insertOrdered version others = others.orderedInsert AtMost version := by
  induction others with
  | nil => rfl
  | cons head rest induction =>
    rw [insertOrdered, induction]
    rfl

theorem sort_eq_insertionSort (versions : List ArtifactVersion) :
    sort versions = versions.insertionSort AtMost := by
  induction versions with
  | nil => rfl
  | cons version versions induction =>
    rw [List.insertionSort_cons, ← induction, ← insertOrdered_eq_orderedInsert]
    rfl

theorem eq_sort_iff {versions listed : List ArtifactVersion} :
    listed = sort versions ↔ listed.Perm versions ∧ listed.Pairwise AtMost := by
  rw [sort_eq_insertionSort]
  have ascending := List.pairwise_insertionSort AtMost versions
  have sorted := List.perm_insertionSort AtMost versions
  constructor
  · intro same
    exact same ▸ ⟨sorted, ascending⟩
  · intro arranged
    exact List.Perm.eq_of_pairwise (fun _ _ _ _ => AtMost.antisymm) arranged.2 ascending
      (arranged.1.trans sorted.symm)

theorem parse_eq_ok_iff {text : String} {version : ArtifactVersion} :
    parse text = .ok version ↔ version.text = text ∧ version.Spelled := by
  rw [← parse?_eq_some_iff, parse]
  cases parse? text <;> simp

theorem compare_eq_gt_iff {first second : ArtifactVersion} :
    compare first second = .gt ↔ second.Precedes first := by
  rw [← compare_eq_lt_iff]
  exact Std.OrientedCmp.gt_iff_lt

/-- Versions that are read from texts compare as the texts spell them, only identical texts are
equal, and a list of versions is sorted alike from every arrangement. -/
theorem parsed_versions_totally_ordered {first second : String} {a b : ArtifactVersion}
    (readFirst : parse first = .ok a) (readSecond : parse second = .ok b) :
    (a.text = first ∧ a.Spelled) ∧ compare a a = .eq ∧ (compare a b = .eq ↔ first = second) ∧
      (compare a b = .lt ↔ a.Precedes b) ∧ (compare a b = .gt ↔ b.Precedes a) ∧
      (a.AtMost b ∨ b.AtMost a) ∧ (∀ c, a.AtMost b → b.AtMost c → a.AtMost c) ∧
      (a.AtMost b → b.AtMost a → first = second) ∧
      ∀ versions : List ArtifactVersion, (sort versions).Perm versions ∧
        (sort versions).Pairwise AtMost ∧
        ∀ others, versions.Perm others → sort others = sort versions := by
  have texts : a = b ↔ first = second := by
    constructor
    · intro same
      rw [← (parse_eq_ok_iff.1 readFirst).1, same, (parse_eq_ok_iff.1 readSecond).1]
    · intro same
      exact Except.ok.inj (readFirst.symm.trans (same ▸ readSecond))
  refine ⟨parse_eq_ok_iff.1 readFirst, Std.ReflCmp.compare_self, ?_, compare_eq_lt_iff,
    compare_eq_gt_iff, Std.Total.total a b, fun c => IsTrans.trans a b c, ?_, ?_⟩
  · rw [Std.LawfulEqOrd.compare_eq_iff_eq, texts]
  · intro le ge
    exact texts.1 (le.antisymm ge)
  · intro versions
    have arranged := eq_sort_iff.1 (rfl : sort versions = sort versions)
    refine ⟨arranged.1, arranged.2, ?_⟩
    intro others permuted
    symm
    exact eq_sort_iff.2 ⟨arranged.1.trans permuted, arranged.2⟩

/-- Three spellings of two lists of numbers. -/
theorem parsed_versions_totally_ordered_across_spellings :
    ∃ a b c, parse "01.9-" = .ok a ∧ parse "1.+9" = .ok b ∧ parse "1.10-rc" = .ok c ∧
      a.Precedes b ∧ compare b c = .lt ∧ a.AtMost c ∧ sort [c, a, b] = sort [b, a, c] := by
  have readFirst : parse "01.9-" = .ok ⟨"01.9-", [1, 9], some ""⟩ := by decide +kernel
  have readSecond : parse "1.+9" = .ok ⟨"1.+9", [1, 9], none⟩ := by decide +kernel
  have readThird : parse "1.10-rc" = .ok ⟨"1.10-rc", [1, 10], some "rc"⟩ := by decide +kernel
  obtain ⟨_, _, _, before, _, _, through, _, sorted⟩ :=
    parsed_versions_totally_ordered readFirst readSecond
  exact ⟨_, _, _, readFirst, readSecond, readThird, before.1 (by decide +kernel),
    by decide +kernel, through _ (by decide +kernel) (by decide +kernel),
    (sorted _).2.2 _ (by decide)⟩

end ArtifactVersion

namespace ArtifactId

theorem compare_eq_lt_iff {first second : ArtifactId} : compare first second = .lt ↔
    first.name < second.name ∨
      first.name = second.name ∧ compare first.version second.version = .lt := by
  have parts : compare first second =
    (compare first.name second.name).then (compare first.version second.version) := rfl
  rw [parts, Ordering.then_eq_lt, ArtifactVersion.compare_text_eq_lt,
    Std.LawfulEqOrd.compare_eq_iff_eq]

end ArtifactId

end SnapshotTable
