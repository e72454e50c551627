import Mathlib.Data.List.Nodup
import SnapshotTable.Artifact.Catalogue

/-!
Filling a catalogue. As long as no artifact and no plugin of an artifact is registered twice, the
order of the registrations leaves no trace: places and candidates are kept in maps, and a map built
from distinct keys does not tell in which order they came.
-/

namespace SnapshotTable

set_option autoImplicit false

namespace SortedMap

theorem ofList_perm {α β : Type} {cmp : α → α → Ordering} [Std.TransCmp cmp] [Std.LawfulEqCmp cmp]
    {pairs others : List (α × β)} (permuted : pairs.Perm others)
    (distinct : (pairs.map (·.1)).Nodup) :
    (ofList pairs : SortedMap α β cmp) = ofList others := by
  unfold ofList
  apply permuted.foldl_eq'
  intro first firstMember second secondMember map
  by_cases same : first.1 = second.1
  · rw [List.inj_on_of_nodup_map distinct firstMember secondMember same]
  · exact insert_comm map same first.2 second.2

end SortedMap

inductive Registration where
  | place (artifact : ArtifactId) (location : String)
  | offer (plugin : Plugin)
deriving DecidableEq

namespace Registration

def placement? : Registration → Option (ArtifactId × String)
  | .place artifact location => some (artifact, location)
  | .offer _ => none

def plugin? : Registration → Option Plugin
  | .place _ _ => none
  | .offer plugin => some plugin

/-- The two do not register the same artifact, nor the same plugin of the same artifact. -/
def Apart : Registration → Registration → Prop
  | .place first _, .place second _ => first ≠ second
  | .offer first, .offer second =>
    ¬(first.type = second.type ∧ first.name = second.name ∧ first.artifact = second.artifact)
  | _, _ => True

instance : DecidableRel Apart
  | .place first _, .place second _ => inferInstanceAs (Decidable (first ≠ second))
  | .offer first, .offer second => inferInstanceAs (Decidable (¬(first.type = second.type ∧
      first.name = second.name ∧ first.artifact = second.artifact)))
  | .place _ _, .offer _ => isTrue trivial
  | .offer _, .place _ _ => isTrue trivial

variable {registrations : List Registration}

theorem nodup_artifacts (once : registrations.Pairwise Apart) :
    ((registrations.filterMap placement?).map (·.1)).Nodup := by
  apply List.pairwise_map.2
  apply List.Pairwise.filterMap placement? _ once
  intro first second apart placement found other otherFound
  cases first with
  | offer => contradiction
  | place artifact location =>
    cases second with
    | offer => contradiction
    | place another elsewhere =>
      cases found
      cases otherFound
      exact apart

theorem nodup_candidates (once : registrations.Pairwise Apart) (type name : String) :
    (((registrations.filterMap plugin?).filter fun plugin =>
      plugin.type == type && plugin.name == name).map (·.artifact)).Nodup := by
  have apart : (registrations.filterMap plugin?).Pairwise fun first second =>
      ¬(first.type = second.type ∧ first.name = second.name ∧
        first.artifact = second.artifact) := by
    apply List.Pairwise.filterMap plugin? _ once
    intro first second apart plugin found other otherFound
    cases first with
    | place => contradiction
    | offer =>
      cases second with
      | place => contradiction
      | offer =>
        cases found
        cases otherFound
        exact apart
  apply List.pairwise_map.2
  apply (apart.filter _).imp_of_mem
  intro first second firstMember secondMember apart same
  have firstAsked := List.of_mem_filter firstMember
  have secondAsked := List.of_mem_filter secondMember
  simp only [Bool.and_eq_true, beq_iff_eq] at firstAsked secondAsked
  apply apart
  rw [firstAsked.1, firstAsked.2, secondAsked.1, secondAsked.2]
  exact ⟨rfl, rfl, same⟩

end Registration

namespace Catalogue

def register (catalogue : Catalogue) : Registration → Catalogue
  | .place artifact location => catalogue.addArtifact artifact location
  | .offer plugin => catalogue.addPlugin plugin

def ofRegistrations (registrations : List Registration) : Catalogue :=
  registrations.foldl register {}

variable {registrations others : List Registration}

theorem foldl_register (registrations : List Registration) (catalogue : Catalogue) :
    registrations.foldl register catalogue =
      { plugins := catalogue.plugins ++ registrations.filterMap Registration.plugin?
        locations := (registrations.filterMap Registration.placement?).foldl
          (fun map pair => map.insert pair.1 pair.2) catalogue.locations } := by
  induction registrations generalizing catalogue with
  | nil => simp
  | cons registration registrations induction =>
    rw [List.foldl_cons, induction]
    cases registration with
    | place artifact location =>
      simp [register, addArtifact, List.filterMap_cons, Registration.plugin?,
        Registration.placement?]
    | offer plugin =>
      simp [register, addPlugin, List.filterMap_cons, Registration.plugin?,
        Registration.placement?]

theorem plugins_ofRegistrations (registrations : List Registration) :
    (ofRegistrations registrations).plugins = registrations.filterMap Registration.plugin? := by
  rw [ofRegistrations, foldl_register]
  rfl

theorem locations_ofRegistrations (registrations : List Registration) :
    (ofRegistrations registrations).locations =
      SortedMap.ofList (registrations.filterMap Registration.placement?) := by
  rw [ofRegistrations, foldl_register]
  rfl

theorem locations_of_perm (once : registrations.Pairwise Registration.Apart)
    (permuted : registrations.Perm others) :
    (ofRegistrations registrations).locations = (ofRegistrations others).locations := by
  rw [locations_ofRegistrations, locations_ofRegistrations]
  exact SortedMap.ofList_perm (permuted.filterMap _) (Registration.nodup_artifacts once)

theorem candidates_of_perm (once : registrations.Pairwise Registration.Apart)
    (permuted : registrations.Perm others) (type name : String) :
    (ofRegistrations registrations).candidates type name =
      (ofRegistrations others).candidates type name := by
  unfold candidates
  rw [plugins_ofRegistrations, plugins_ofRegistrations]
  apply SortedMap.ofList_perm (((permuted.filterMap _).filter _).map _)
  rw [List.map_map]
  exact Registration.nodup_candidates once type name

/-- Catalogues filled by the same registrations answer alike. -/
theorem answers_independent_of_order (once : registrations.Pairwise Registration.Apart)
    (permuted : registrations.Perm others) :
    (∀ artifact, (ofRegistrations registrations).location artifact =
      (ofRegistrations others).location artifact) ∧
      ∀ type name selection, (ofRegistrations registrations).resolve type name selection =
        (ofRegistrations others).resolve type name selection := by
  have places := locations_of_perm once permuted
  constructor
  · intro artifact
    unfold location
    rw [places]
  · intro type name selection
    unfold resolve
    rw [candidates_of_perm once permuted, places]

/-- Two spellings of one version are two artifacts, and one of them is offered under two names. -/
theorem answers_independent_of_order_across_spellings :
    let short : ArtifactId := ⟨"lib", ⟨"1.0", [1, 0], none⟩⟩
    let long : ArtifactId := ⟨"lib", ⟨"01.0", [1, 0], none⟩⟩
    let registrations : List Registration := [.place short "/short",
      .offer ⟨"sink", "table", "Short", short⟩, .offer ⟨"sink", "file", "Short", short⟩,
      .offer ⟨"sink", "table", "Long", long⟩, .place long "/long"]
    (ofRegistrations registrations).resolve "sink" "table" .latest =
        .ok ⟨"/short", ⟨"sink", "table", "Short", short⟩⟩ ∧
      (ofRegistrations registrations.reverse).resolve "sink" "table" .latest =
        .ok ⟨"/short", ⟨"sink", "table", "Short", short⟩⟩ := by
  intro short long registrations
  have answer : (ofRegistrations registrations).resolve "sink" "table" .latest =
      .ok ⟨"/short", ⟨"sink", "table", "Short", short⟩⟩ := by decide +kernel
  have once : registrations.Pairwise Registration.Apart := by decide +kernel
  have alike := answers_independent_of_order once registrations.reverse_perm.symm
  exact ⟨answer, (alike.2 "sink" "table" .latest).symm.trans answer⟩

end Catalogue

end SnapshotTable
