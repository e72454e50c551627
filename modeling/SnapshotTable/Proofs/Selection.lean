import Mathlib.Data.String.Basic
import SnapshotTable.Proofs.Precedence

/-!
What a catalogue answers. The candidates for a type and name stand in the order of their artifacts,
names before versions, and a selection takes the last or the first that it accepts; only then is the
place looked up. So the highest version is found only if no artifact of a later name is offered, and
a plugin whose artifact has no place can stand in the way of others.
-/

namespace SnapshotTable

set_option autoImplicit false

theorem find?_eq_some_iff_of_pairwise {α : Type} {before : α → α → Prop} {items : List α}
    (ordered : items.Pairwise before) (asymmetric : ∀ first second, before first second →
      ¬before second first) {accepts : α → Bool} {item : α} :
    items.find? accepts = some item ↔ item ∈ items ∧ accepts item ∧
      ∀ other ∈ items, accepts other → other = item ∨ before item other := by
  induction ordered with
  | nil => simp
  | @cons head rest below _ induction =>
    by_cases accepted : accepts head
    · rw [List.find?_cons_of_pos accepted, Option.some.injEq]
      constructor
      · intro same
        subst same
        refine ⟨List.mem_cons_self, accepted, ?_⟩
        intro other member _
        exact (List.mem_cons.1 member).imp_right (below other)
      · intro first
        rcases first.2.2 head List.mem_cons_self accepted with same | earlier
        · exact same
        · rcases List.mem_cons.1 first.1 with same | member
          · exact same.symm
          · exact absurd earlier (asymmetric head item (below item member))
    · rw [List.find?_cons_of_neg accepted, induction]
      grind

namespace Selection

def accepts : Selection → ArtifactId → Bool
  | .latest, _ => true
  | .exact version, artifact => artifact.version.text == version

/-- Of two artifacts that it accepts, the selection picks the first one. -/
def Prefers : Selection → ArtifactId → ArtifactId → Prop
  | .latest, picked, other => compare other picked = .lt
  | .exact _, picked, other => compare picked other = .lt

theorem Prefers.asymm {selection : Selection} {first second : ArtifactId}
    (prefers : selection.Prefers first second) : ¬selection.Prefers second first := by
  cases selection with
  | latest => exact Std.OrientedCmp.not_lt_of_lt prefers
  | exact version => exact Std.OrientedCmp.not_lt_of_lt prefers

/-- The candidates, those that are preferred first. -/
def arranged : Selection → Candidates → List (ArtifactId × Plugin)
  | .latest, candidates => candidates.entries.reverse
  | .exact _, candidates => candidates.entries

theorem pairwise_arranged (selection : Selection) (candidates : Candidates) :
    (selection.arranged candidates).Pairwise fun entry other =>
      selection.Prefers entry.1 other.1 := by
  cases selection with
  | latest => exact List.pairwise_reverse.2 candidates.ascending
  | exact version => exact candidates.ascending

theorem mem_arranged_iff {selection : Selection} {candidates : Candidates} {artifact : ArtifactId}
    {plugin : Plugin} : (artifact, plugin) ∈ selection.arranged candidates ↔
      candidates.find? artifact = some plugin := by
  rw [← SortedMap.mem_entries_iff]
  cases selection with
  | latest => exact List.mem_reverse
  | exact version => exact Iff.rfl

theorem select?_eq (selection : Selection) (candidates : Candidates) :
    selection.select? candidates =
      ((selection.arranged candidates).find? fun entry => selection.accepts entry.1).map (·.2) := by
  cases selection with
  | latest =>
    have last : candidates.entries.getLast? =
        candidates.entries.reverse.find? fun _ => true := by
      rw [List.getLast?_eq_head?_reverse]
      cases candidates.entries.reverse <;> rfl
    change (candidates.entries.map (·.2)).getLast? =
      (candidates.entries.reverse.find? fun _ => true).map (·.2)
    rw [List.getLast?_map, last]
  | exact version => rfl

theorem select?_eq_some_iff {selection : Selection} {candidates : Candidates} {plugin : Plugin} :
    selection.select? candidates = some plugin ↔ ∃ artifact,
      candidates.find? artifact = some plugin ∧ selection.accepts artifact ∧
        ∀ other found, candidates.find? other = some found → selection.accepts other →
          (other, found) = (artifact, plugin) ∨ selection.Prefers artifact other := by
  have found (entry : ArtifactId × Plugin) :
      (selection.arranged candidates).find? (fun entry => selection.accepts entry.1) = some entry ↔
        _ := find?_eq_some_iff_of_pairwise (selection.pairwise_arranged candidates)
          fun _ _ => Prefers.asymm
  simp only [select?_eq, Option.map_eq_some_iff, found, Prod.exists, Prod.forall, mem_arranged_iff,
    exists_eq_right]

theorem select?_eq_none_iff {selection : Selection} {candidates : Candidates} :
    selection.select? candidates = none ↔
      ∀ artifact plugin, candidates.find? artifact = some plugin → ¬selection.accepts artifact := by
  simp only [select?_eq, Option.map_eq_none_iff, List.find?_eq_none, Prod.forall, mem_arranged_iff]

end Selection

namespace Catalogue

variable {catalogue : Catalogue} {type name : String} {selection : Selection} {plugin : Plugin}

/-- A plugin of the type and name is listed, whether its artifact has a place or not. -/
structure Offers (catalogue : Catalogue) (type name : String) (plugin : Plugin) : Prop where
  listed : plugin ∈ catalogue.plugins
  sameType : plugin.type = type
  sameName : plugin.name = name

instance : Decidable (catalogue.Offers type name plugin) :=
  decidable_of_iff (plugin ∈ catalogue.plugins ∧ plugin.type = type ∧ plugin.name = name)
    ⟨fun parts => ⟨parts.1, parts.2.1, parts.2.2⟩,
      fun offered => ⟨offered.listed, offered.sameType, offered.sameName⟩⟩

def Places (catalogue : Catalogue) (artifact : ArtifactId) : Prop :=
  catalogue.locations.contains artifact

instance (artifact : ArtifactId) : Decidable (catalogue.Places artifact) :=
  inferInstanceAs (Decidable (_ = true))

/-- The plugin that a selection picks. Places play no part in it. -/
structure Picks (catalogue : Catalogue) (type name : String) (selection : Selection)
    (plugin : Plugin) : Prop where
  candidate : (catalogue.candidates type name).find? plugin.artifact = some plugin
  accepted : selection.accepts plugin.artifact
  preferred : ∀ other, catalogue.Offers type name other → selection.accepts other.artifact →
    other.artifact = plugin.artifact ∨ selection.Prefers plugin.artifact other.artifact

theorem find?_candidates (catalogue : Catalogue) (type name : String) (artifact : ArtifactId) :
    (catalogue.candidates type name).find? artifact = catalogue.plugins.reverse.find? fun plugin =>
      (plugin.type == type && plugin.name == name) && plugin.artifact == artifact := by
  rw [candidates, SortedMap.find?_ofList, ← List.map_reverse, List.find?_map, Option.map_map,
    ← List.filter_reverse, List.find?_filter]
  simp only [Function.comp_def, Bool.decide_and, Bool.decide_eq_true, Option.map_id_fun', id]

theorem candidate_offered {artifact : ArtifactId}
    (found : (catalogue.candidates type name).find? artifact = some plugin) :
    catalogue.Offers type name plugin ∧ plugin.artifact = artifact := by
  rw [find?_candidates] at found
  have listed := List.mem_reverse.1 (List.mem_of_find?_eq_some found)
  have asked := List.find?_some found
  simp only [Bool.and_eq_true, beq_iff_eq] at asked
  exact ⟨⟨listed, asked.1.1, asked.1.2⟩, asked.2⟩

theorem exists_candidate (offered : catalogue.Offers type name plugin) :
    ∃ found, (catalogue.candidates type name).find? plugin.artifact = some found := by
  rw [← Option.isSome_iff_exists, find?_candidates, List.find?_isSome]
  exact ⟨plugin, List.mem_reverse.2 offered.listed,
    by simp [offered.sameType, offered.sameName]⟩

theorem select?_candidates_eq_some_iff :
    selection.select? (catalogue.candidates type name) = some plugin ↔
      catalogue.Picks type name selection plugin := by
  rw [Selection.select?_eq_some_iff]
  constructor
  · intro selected
    obtain ⟨artifact, found, accepted, preferred⟩ := selected
    obtain rfl := (candidate_offered found).2
    refine ⟨found, accepted, ?_⟩
    intro other offered accepts
    obtain ⟨candidate, found⟩ := exists_candidate offered
    exact (preferred _ candidate found accepts).imp_left fun same => congrArg Prod.fst same
  · intro picked
    refine ⟨plugin.artifact, picked.candidate, picked.accepted, ?_⟩
    intro other candidate found accepts
    obtain ⟨offered, rfl⟩ := candidate_offered found
    rcases picked.preferred candidate offered accepts with same | prefers
    · rw [same, picked.candidate] at found
      exact Or.inl (Prod.ext same (Option.some.inj found).symm)
    · exact Or.inr prefers

theorem select?_candidates_eq_none_iff :
    selection.select? (catalogue.candidates type name) = none ↔
      ∀ plugin, catalogue.Offers type name plugin → ¬selection.accepts plugin.artifact := by
  rw [Selection.select?_eq_none_iff]
  constructor
  · intro refused plugin offered
    obtain ⟨found, candidate⟩ := exists_candidate offered
    exact refused plugin.artifact found candidate
  · intro refused artifact plugin found
    obtain ⟨offered, rfl⟩ := candidate_offered found
    exact refused plugin offered

theorem location_eq_ok_iff {artifact : ArtifactId} {place : String} :
    catalogue.location artifact = .ok place ↔ catalogue.locations.find? artifact = some place := by
  unfold location
  cases catalogue.locations.find? artifact <;> simp

theorem places_iff {artifact : ArtifactId} :
    catalogue.Places artifact ↔ ∃ place, catalogue.location artifact = .ok place := by
  unfold Places SortedMap.contains
  rw [Option.isSome_iff_exists]
  simp only [location_eq_ok_iff]

theorem resolve_of_placed {place : String} (picked : catalogue.Picks type name selection plugin)
    (placed : catalogue.location plugin.artifact = .ok place) :
    catalogue.resolve type name selection = .ok ⟨place, plugin⟩ := by
  simp only [resolve, select?_candidates_eq_some_iff.2 picked, location_eq_ok_iff.1 placed]

theorem resolve_of_missing (picked : catalogue.Picks type name selection plugin)
    (missing : ¬catalogue.Places plugin.artifact) :
    catalogue.resolve type name selection = .error (.noSuchPlugin type name) := by
  have absent : catalogue.locations.find? plugin.artifact = none := by
    simpa [Places, SortedMap.contains] using missing
  simp only [resolve, select?_candidates_eq_some_iff.2 picked, absent]

theorem resolve_of_refused
    (refused : ∀ plugin, catalogue.Offers type name plugin → ¬selection.accepts plugin.artifact) :
    catalogue.resolve type name selection = .error (.noSuchPlugin type name) := by
  simp only [resolve, select?_candidates_eq_none_iff.2 refused]

theorem picks_or_refuses (catalogue : Catalogue) (type name : String) (selection : Selection) :
    (∃ plugin, catalogue.Picks type name selection plugin) ∨
      ∀ plugin, catalogue.Offers type name plugin → ¬selection.accepts plugin.artifact := by
  cases selected : selection.select? (catalogue.candidates type name) with
  | some plugin => exact Or.inl ⟨plugin, select?_candidates_eq_some_iff.1 selected⟩
  | none => exact Or.inr (select?_candidates_eq_none_iff.1 selected)

theorem Picks.offered (picked : catalogue.Picks type name selection plugin) :
    catalogue.Offers type name plugin :=
  (candidate_offered picked.candidate).1

theorem Picks.of_latest {other : Plugin} (picked : catalogue.Picks type name .latest plugin)
    (offered : catalogue.Offers type name other) :
    other.artifact.name < plugin.artifact.name ∨ other.artifact.name = plugin.artifact.name ∧
      other.artifact.version.AtMost plugin.artifact.version := by
  rcases picked.preferred other offered rfl with same | before
  · rw [same]
    exact Or.inr ⟨rfl, .refl _⟩
  · have lower := ArtifactId.compare_eq_lt_iff.1 before
    exact lower.imp_right fun parts => ⟨parts.1, .of_lt parts.2⟩

/-- The latest plugin is the highest version of the last artifact name. So it is the highest version
of all exactly if some plugin has both at once, the last name and the highest version. -/
theorem latest_is_highest_iff
    (placed : ∀ plugin ∈ catalogue.plugins, catalogue.Places plugin.artifact)
    (offered : ∃ plugin, catalogue.Offers type name plugin) :
    ∃ place plugin, catalogue.resolve type name .latest = .ok ⟨place, plugin⟩ ∧
      catalogue.location plugin.artifact = .ok place ∧ catalogue.Offers type name plugin ∧
      (∀ other, catalogue.Offers type name other →
        other.artifact.name ≤ plugin.artifact.name ∧
          (other.artifact.name = plugin.artifact.name →
            other.artifact.version.AtMost plugin.artifact.version)) ∧
      ((∀ other, catalogue.Offers type name other →
          other.artifact.version.AtMost plugin.artifact.version) ↔
        ∃ top, catalogue.Offers type name top ∧ ∀ other, catalogue.Offers type name other →
          other.artifact.name ≤ top.artifact.name ∧
            other.artifact.version.AtMost top.artifact.version) := by
  rcases picks_or_refuses catalogue type name .latest with ⟨plugin, picked⟩ | refused
  · obtain ⟨place, found⟩ := places_iff.1 (placed plugin picked.offered.listed)
    have last : ∀ other, catalogue.Offers type name other →
        other.artifact.name ≤ plugin.artifact.name ∧
          (other.artifact.name = plugin.artifact.name →
            other.artifact.version.AtMost plugin.artifact.version) := by
      intro other offers
      rcases picked.of_latest offers with before | same
      · exact ⟨before.le, fun same => absurd same before.ne⟩
      · exact ⟨same.1.le, fun _ => same.2⟩
    refine ⟨place, plugin, resolve_of_placed picked found, found, picked.offered, last, ?_⟩
    constructor
    · intro highest
      exact ⟨plugin, picked.offered,
        fun other offers => ⟨(last other offers).1, highest other offers⟩⟩
    · intro both other offers
      obtain ⟨top, topOffered, above⟩ := both
      have names : top.artifact.name = plugin.artifact.name :=
        le_antisymm (last top topOffered).1 (above plugin picked.offered).1
      exact IsTrans.trans _ _ _ (above other offers).2 ((last top topOffered).2 names)
  · obtain ⟨plugin, offers⟩ := offered
    exact absurd rfl (refused plugin offers)

/-- The last name has the highest version too. -/
theorem latest_is_highest_beside_other_name :
    let plugin (artifact : ArtifactId) : Plugin := ⟨"sink", "table", "Sink", artifact⟩
    let alpha : ArtifactId := ⟨"alpha", ⟨"1.10", [1, 10], none⟩⟩
    let zeta : ArtifactId := ⟨"zeta", ⟨"1.9", [1, 9], none⟩⟩
    let newest : ArtifactId := ⟨"zeta", ⟨"2.0-rc", [2, 0], some "rc"⟩⟩
    let catalogue : Catalogue := [alpha, newest, zeta].foldl
      (fun catalogue artifact => (catalogue.addArtifact artifact artifact.display).addPlugin
        (plugin artifact)) {}
    (∀ plugin ∈ catalogue.plugins, catalogue.Places plugin.artifact) ∧
      catalogue.resolve "sink" "table" .latest = .ok ⟨"zeta:2.0-rc", plugin newest⟩ ∧
      ∀ other, catalogue.Offers "sink" "table" other →
        other.artifact.version.AtMost newest.version := by
  intro plugin alpha zeta newest catalogue
  have answer : catalogue.resolve "sink" "table" .latest = .ok ⟨"zeta:2.0-rc", plugin newest⟩ := by
    decide +kernel
  have placed : ∀ plugin ∈ catalogue.plugins, catalogue.Places plugin.artifact := by
    decide +kernel
  have offered : catalogue.Offers "sink" "table" (plugin newest) := by decide +kernel
  have above : ∀ other ∈ catalogue.plugins, other.artifact.name ≤ newest.name ∧
      other.artifact.version.AtMost newest.version := by decide +kernel
  obtain ⟨place, picked, resolved, _, _, _, highest⟩ := latest_is_highest_iff placed ⟨_, offered⟩
  obtain rfl : plugin newest = picked :=
    congrArg ResolvedPlugin.plugin (Except.ok.inj (answer.symm.trans resolved))
  exact ⟨placed, answer, highest.2 ⟨_, offered, fun other offers => above other offers.listed⟩⟩

/-- A higher version under an earlier name is not found. -/
theorem latest_misses_higher_version :
    let alpha : Plugin := ⟨"sink", "table", "A", ⟨"alpha", ⟨"9.0", [9, 0], none⟩⟩⟩
    let zeta : Plugin := ⟨"sink", "table", "Z", ⟨"zeta", ⟨"1.0", [1, 0], none⟩⟩⟩
    let catalogue := (((({} : Catalogue).addArtifact alpha.artifact "/a").addPlugin
      alpha).addArtifact zeta.artifact "/z").addPlugin zeta
    ArtifactId.new "alpha" "9.0" = .ok alpha.artifact ∧
      ArtifactId.new "zeta" "1.0" = .ok zeta.artifact ∧
      (∀ plugin ∈ catalogue.plugins, catalogue.Places plugin.artifact) ∧
      catalogue.Offers "sink" "table" alpha ∧
      catalogue.resolve "sink" "table" .latest = .ok ⟨"/z", zeta⟩ ∧
      ¬alpha.artifact.version.AtMost zeta.artifact.version := by
  decide +kernel

/-- The catalogue without the plugins whose artifact has no place. -/
def available (catalogue : Catalogue) : Catalogue :=
  { catalogue with
    plugins := catalogue.plugins.filter fun plugin => decide (catalogue.Places plugin.artifact) }

theorem offers_available_iff : catalogue.available.Offers type name plugin ↔
    catalogue.Offers type name plugin ∧ catalogue.Places plugin.artifact := by
  constructor
  · intro offered
    have listed := List.mem_filter.1 offered.listed
    exact ⟨⟨listed.1, offered.sameType, offered.sameName⟩, of_decide_eq_true listed.2⟩
  · intro offered
    exact ⟨List.mem_filter.2 ⟨offered.1.listed, decide_eq_true offered.2⟩, offered.1.sameType,
      offered.1.sameName⟩

theorem find?_candidates_available {artifact : ArtifactId} (placed : catalogue.Places artifact) :
    (catalogue.available.candidates type name).find? artifact =
      (catalogue.candidates type name).find? artifact := by
  rw [find?_candidates, find?_candidates, available, ← List.filter_reverse, List.find?_filter]
  congr 1
  funext plugin
  by_cases same : plugin.artifact = artifact
  · simp [same, placed, Bool.beq_eq_decide_eq]
  · simp [same]

theorem Picks.available (picked : catalogue.Picks type name selection plugin)
    (placed : catalogue.Places plugin.artifact) :
    catalogue.available.Picks type name selection plugin where
  candidate := (find?_candidates_available placed).trans picked.candidate
  accepted := picked.accepted
  preferred := fun other offered => picked.preferred other (offers_available_iff.1 offered).1

theorem Picks.unique {other : Plugin} (picked : catalogue.Picks type name selection plugin)
    (again : catalogue.Picks type name selection other) : plugin = other := by
  have selected := select?_candidates_eq_some_iff.2 picked
  rw [select?_candidates_eq_some_iff.2 again] at selected
  exact (Option.some.inj selected).symm

/-- A plugin of the type and name that the selection accepts has a place. -/
def Provides (catalogue : Catalogue) (type name : String) (selection : Selection) : Prop :=
  ∃ plugin, catalogue.Offers type name plugin ∧ selection.accepts plugin.artifact ∧
    catalogue.Places plugin.artifact

theorem available_of_placed (picked : catalogue.Picks type name selection plugin)
    (placed : catalogue.Places plugin.artifact) :
    catalogue.resolve type name selection = catalogue.available.resolve type name selection := by
  obtain ⟨place, found⟩ := places_iff.1 placed
  rw [resolve_of_placed picked found]
  exact (resolve_of_placed (picked.available placed) found).symm

theorem available_of_provides (provides : catalogue.Provides type name selection) :
    ∃ found, catalogue.available.resolve type name selection = .ok found := by
  obtain ⟨plugin, offered, accepted, placed⟩ := provides
  rcases picks_or_refuses catalogue.available type name selection with ⟨picked, picks⟩ | refused
  · have placed := (offers_available_iff.1 picks.offered).2
    obtain ⟨place, found⟩ := places_iff.1 placed
    exact ⟨⟨place, picked⟩, resolve_of_placed picks found⟩
  · exact absurd accepted (refused plugin (offers_available_iff.2 ⟨offered, placed⟩))

theorem available_of_not_provides (lacks : ¬catalogue.Provides type name selection) :
    catalogue.available.resolve type name selection = .error (.noSuchPlugin type name) := by
  apply resolve_of_refused
  intro plugin offered accepted
  have both := offers_available_iff.1 offered
  exact lacks ⟨plugin, both.1, accepted, both.2⟩

/-- Plugins whose artifact has no place make a difference exactly if one of them is picked although
a plugin that the selection accepts has a place. Then no plugin is found. -/
theorem resolve_available_iff (catalogue : Catalogue) (type name : String)
    (selection : Selection) :
    (catalogue.resolve type name selection = catalogue.available.resolve type name selection ↔
      ∀ picked, catalogue.Picks type name selection picked →
        catalogue.Provides type name selection → catalogue.Places picked.artifact) ∧
      (catalogue.resolve type name selection = catalogue.available.resolve type name selection ∨
        catalogue.resolve type name selection = .error (.noSuchPlugin type name)) := by
  rcases picks_or_refuses catalogue type name selection with ⟨plugin, picks⟩ | refused
  · by_cases placed : catalogue.Places plugin.artifact
    · -- what is picked has a place, so it is picked among the available plugins too
      have same := available_of_placed picks placed
      refine ⟨iff_of_true same ?_, Or.inl same⟩
      intro picked again _
      exact picks.unique again ▸ placed
    · -- what is picked has no place, so only an empty answer of the available plugins is the same
      have missing := resolve_of_missing picks placed
      refine ⟨?_, Or.inr missing⟩
      by_cases provides : catalogue.Provides type name selection
      · obtain ⟨found, available⟩ := available_of_provides provides
        rw [missing, available]
        apply iff_of_false
        · exact nofun
        · intro always
          exact placed (always plugin picks provides)
      · rw [missing, available_of_not_provides provides]
        exact iff_of_true rfl fun _ _ provided => absurd provided provides
  · have lacks : ¬catalogue.Provides type name selection := by
      intro provided
      obtain ⟨plugin, offered, accepted, _⟩ := provided
      exact refused plugin offered accepted
    have same : catalogue.resolve type name selection =
        catalogue.available.resolve type name selection := by
      rw [resolve_of_refused refused, available_of_not_provides lacks]
    exact ⟨iff_of_true same fun _ _ provided => absurd provided lacks, Or.inl same⟩

/-- The highest version has no place, and neither has the first of the artifacts of version 1.0.
Both stand in the way of the plugin that has one. -/
theorem missing_artifacts_hide_plugin :
    let plugin (artifact : ArtifactId) : Plugin := ⟨"sink", "table", "Sink", artifact⟩
    let early : ArtifactId := ⟨"core", ⟨"1.0", [1, 0], none⟩⟩
    let present : ArtifactId := ⟨"lib", ⟨"1.0", [1, 0], none⟩⟩
    let newest : ArtifactId := ⟨"lib", ⟨"2.0", [2, 0], none⟩⟩
    let catalogue := (((({} : Catalogue).addPlugin (plugin early)).addPlugin
      (plugin present)).addPlugin (plugin newest)).addArtifact present "/lib"
    [("core", "1.0"), ("lib", "1.0"), ("lib", "2.0")].mapM (fun id => ArtifactId.new id.1 id.2) =
        .ok [early, present, newest] ∧
      ∀ selection ∈ [.latest, .exact "1.0"],
        catalogue.resolve "sink" "table" selection = .error (.noSuchPlugin "sink" "table") ∧
          catalogue.available.resolve "sink" "table" selection = .ok ⟨"/lib", plugin present⟩ := by
  decide +kernel

end Catalogue

end SnapshotTable
