import SnapshotTable.Artifact.Version

/-!
A catalogue of plugins and of the places where their artifacts are. A plugin of a type and name
may come in several artifacts; a selection picks one, whose place is then looked up.
-/

namespace SnapshotTable

set_option autoImplicit false

structure Plugin where
  type : String
  name : String
  className : String
  artifact : ArtifactId
deriving DecidableEq

inductive ResolveError where
  | artifactNotFound (artifact : ArtifactId)
  | noSuchPlugin (type name : String)
  | badVersion (text : String)
deriving DecidableEq

namespace ResolveError

def message : ResolveError → String
  | artifactNotFound artifact => "artifact not found: " ++ artifact.display
  | noSuchPlugin type name => "plugin " ++ type ++ ":" ++ name ++ " does not exist"
  | badVersion text => "invalid artifact request: bad artifact version '" ++ text ++ "'"

end ResolveError

namespace ArtifactVersion

def parse (text : String) : Except ResolveError ArtifactVersion :=
  match parse? text with
  | some version => .ok version
  | none => .error (.badVersion text)

end ArtifactVersion

namespace ArtifactId

def new (name version : String) : Except ResolveError ArtifactId := do
  return ⟨name, ← ArtifactVersion.parse version⟩

end ArtifactId

inductive Selection where
  | latest
  | exact (version : String)
deriving DecidableEq

abbrev Candidates := SortedMap ArtifactId Plugin compare

namespace Selection

/-- The last candidate in artifact order, or the first one whose version has the given text. -/
def select? : Selection → Candidates → Option Plugin
  | .latest, candidates => candidates.values.getLast?
  | .exact version, candidates =>
    (candidates.entries.find? fun entry => entry.1.version.text == version).map (·.2)

end Selection

structure ResolvedPlugin where
  location : String
  plugin : Plugin
deriving DecidableEq

structure Catalogue where
  plugins : List Plugin := []
  locations : SortedMap ArtifactId String compare := .empty
deriving DecidableEq

namespace Catalogue

def addArtifact (catalogue : Catalogue) (artifact : ArtifactId) (location : String) : Catalogue :=
  { catalogue with locations := catalogue.locations.insert artifact location }

def addPlugin (catalogue : Catalogue) (plugin : Plugin) : Catalogue :=
  { catalogue with plugins := catalogue.plugins ++ [plugin] }

def location (catalogue : Catalogue) (artifact : ArtifactId) : Except ResolveError String :=
  match catalogue.locations.find? artifact with
  | some place => .ok place
  | none => .error (.artifactNotFound artifact)

/-- The plugins of a type and name by artifact; the last one of an artifact counts. -/
def candidates (catalogue : Catalogue) (type name : String) : Candidates :=
  SortedMap.ofList <|
    (catalogue.plugins.filter fun plugin => plugin.type == type && plugin.name == name).map
      fun plugin => (plugin.artifact, plugin)

/-- A selected plugin whose artifact has no place counts as no plugin. -/
def resolve (catalogue : Catalogue) (type name : String) (selection : Selection) :
    Except ResolveError ResolvedPlugin :=
  match selection.select? (catalogue.candidates type name) with
  | none => .error (.noSuchPlugin type name)
  | some plugin =>
    match catalogue.locations.find? plugin.artifact with
    | some place => .ok ⟨place, plugin⟩
    | none => .error (.noSuchPlugin type name)

end Catalogue

end SnapshotTable
