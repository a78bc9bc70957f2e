import GrammarArtifact.Bundled
import GrammarArtifact.Runtime

/-! Sessions: artifacts, loaders, languages and runtimes under names. Every new artifact gets memory
of its own, and slices share the memory of what they were cut from, so a session shows which
languages are the same. -/

namespace GrammarArtifact

abbrev Named (α : Type) : Type := List (String × α)

namespace Named

variable {α : Type}

def remove (names : Named α) (name : String) : Named α := names.filter (·.1 ≠ name)

def set (names : Named α) (name : String) (value : α) : Named α :=
  (name, value) :: names.remove name

end Named

structure Session where
  /-- The buffer that the next artifact gets. The first one belongs to the bundled table. -/
  nextBuffer : Nat := 1
  artifacts : Named (Option Region) := []
  loaders : Named Loader := []
  languages : Named Language := []
  runtimes : Named Runtime := []

inductive Session.Command where
  /-- New memory with the given bytes, or no artifact at all. -/
  | artifact (name : String) (bytes : Option Bytes)
  | slice (name source : String) (first last : Nat)
  | loader (name : String) (loader : Loader)
  /-- Loads with a named loader or with the default one. -/
  | load (name artifact : String) (loader : Option String)
  | bundled (name : String)
  | same (a b : String)
  | distinct (languages : List String)
  | readSection (language : String) (s : Section)
  | inspect (language : String)
  | runtime (name : String) (versions : VersionRange)
  | install (runtime language : String)

inductive Session.Answer where
  | length (n : Option Nat)
  | versions (r : VersionRange)
  | loaded (report : LoadReport)
  | bundled (outcome : Except LoadError Language)
  | same (equal : Bool)
  | distinct (n : Nat)
  | readSection (bytes : Option Bytes)
  | inspected (l : Language)
  | installed (names : List String) (distinct : Nat) (compatible : Bool)
  | noLanguage
  | unknownName

namespace Session

/-- Keeps the outcome of a load under a name; after a failure nothing is there. -/
def keep (s : Session) (name : String) : Except LoadError Language → Session
  | .ok l => { s with languages := s.languages.set name l }
  | .error _ => { s with languages := s.languages.remove name }

/-- The loader of a name, or the default one where no name is given. -/
def loader? (s : Session) : Option String → Option Loader
  | none => some {}
  | some name => s.loaders.lookup name

def withLanguage (s : Session) (name : String) (answer : Language → Answer) : Answer × Session :=
  match s.languages.lookup name with
  | none => (.noLanguage, s)
  | some l => (answer l, s)

/-- One step. A step that answers with an error changes nothing, a failed load apart. -/
def step (s : Session) : Command → Answer × Session
  | .artifact name bytes =>
    (.length (bytes.map List.length), { s with
      nextBuffer := s.nextBuffer + 1
      artifacts := s.artifacts.set name (bytes.map (.whole s.nextBuffer)) })
  | .slice name source first last =>
    match s.artifacts.lookup source with
    | none => (.unknownName, s)
    | some region =>
      let part := region.map (·.slice first last)
      (.length (part.map Region.length), { s with artifacts := s.artifacts.set name part })
  | .loader name loader =>
    (.versions loader.versions, { s with loaders := s.loaders.set name loader })
  | .load name artifact loader =>
    match s.artifacts.lookup artifact, s.loader? loader with
    | some region, some loader =>
      let report := loader.report region
      (.loaded report, s.keep name report.outcome)
    | _, _ => (.unknownName, s)
  | .bundled name => (.bundled Bundled.language, s.keep name Bundled.language)
  | .same a b =>
    match s.languages.lookup a, s.languages.lookup b with
    | some l, some m => (.same (l == m), s)
    | _, _ => (.noLanguage, s)
  | .distinct names =>
    match names.mapM fun name => s.languages.lookup name with
    | none => (.noLanguage, s)
    | some languages => (.distinct (Language.countDistinct languages), s)
  | .readSection name part => s.withLanguage name fun l => .readSection (l.section? part)
  | .inspect name => s.withLanguage name .inspected
  | .runtime name versions =>
    let runtime : Runtime := { versions }
    (.versions versions, { s with
      runtimes := s.runtimes.set name runtime
      loaders := s.loaders.set name runtime.loader })
  | .install name language =>
    match s.languages.lookup language, s.runtimes.lookup name with
    | none, _ => (.noLanguage, s)
    | some _, none => (.unknownName, s)
    | some l, some runtime =>
      let runtime := runtime.install l
      (.installed (runtime.installed.map Language.name)
          (Language.countDistinct runtime.installed) (runtime.supports l),
        { s with runtimes := s.runtimes.set name runtime })

end Session

end GrammarArtifact
