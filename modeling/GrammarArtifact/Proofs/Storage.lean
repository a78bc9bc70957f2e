import GrammarArtifact.Grammar.Stored
import GrammarArtifact.Proofs.Loading
import GrammarArtifact.Proofs.Terminals

/-! Artifacts in files. A name finds its way through the directories alone
(`FileStore.locate_congr`), so writing changes what is read under the names of the one file and
under no other name (`FileStore.replaced_put`). Whether a file can be opened for writing does not
depend on what is to be written (`FileStore.write_eq_ok`, `FileStore.write_eq_error`). Compilation
comes before all of this, so its failures leave the store alone. -/

namespace GrammarArtifact

namespace FileStore

variable {store after : FileStore} {name part : String} {path there : Path}
  {content : Bytes} {e : FileError}

/-! ## Names and places -/

/-- A name denotes a place for a file, whether there is one or not. -/
structure Denotes (store : FileStore) (name : String) (path : Path) : Prop where
  located : store.locate name = .ok path
  notDirectory : path ∉ store.directories
  notSlashed : endsInSlash name = false

/-- The file that a name denotes can be written. -/
structure Opens (store : FileStore) (name : String) (path : Path) : Prop
    extends Denotes store name path where
  notRefused : store.refusals.lookup path = none

/-- Why no file can be written under a name. -/
inductive Barred (store : FileStore) (name : String) : FileError → Prop
  | unreachable {e : FileError} (h : store.locate name = .error e) : Barred store name e
  | directory {path : Path} (h : store.locate name = .ok path)
    (hdirectory : path ∈ store.directories ∨ endsInSlash name) : Barred store name .isDirectory
  | refused {path : Path} {reason : String} (h : store.Denotes name path)
    (hrefused : store.refusals.lookup path = some reason) : Barred store name (.refused reason)

theorem not_denotes_of_located (h : store.locate name = .ok there) (hne : there ≠ path) :
    ¬store.Denotes name path :=
  fun hdenotes => hne (Except.ok.inj (h.symm.trans hdenotes.located))

theorem enter_eq_ok :
    store.enter path part = .ok there ↔ there = path.follow part ∧ there ∈ store.directories := by
  simp only [enter]
  split
  next hmem =>
    refine ⟨fun h => ?_, fun ⟨h, _⟩ => congrArg _ h.symm⟩
    obtain rfl := Except.ok.inj h
    exact ⟨rfl, hmem⟩
  next hmem =>
    refine ⟨fun h => ?_, fun ⟨h, hthere⟩ => absurd (h ▸ hthere) hmem⟩
    split at h <;> nomatch h

theorem foldlM_enter_congr (h : after.directories = store.directories) (parts : List String) :
    parts.foldlM after.enter path = .ok there ↔ parts.foldlM store.enter path = .ok there := by
  induction parts generalizing path with
  | nil => rfl
  | cons part rest ih => simp only [List.foldlM_cons, bind_eq_ok, enter_eq_ok, h, ih]

section

variable (hstart : after.workingDirectory = store.workingDirectory)
  (h : after.directories = store.directories)
include hstart h

/-- Stores with the same directories and the same working directory locate a name alike. What goes
wrong on the way may differ: it depends on the files as well. -/
theorem locate_congr : after.locate name = .ok path ↔ store.locate name = .ok path := by
  have same : after.start name = store.start name := by rw [start, start, hstart]
  unfold locate
  split
  · rfl
  · split
    · rw [same]
    · simp only [same, bind_eq_ok, foldlM_enter_congr h]

theorem denotes_congr : after.Denotes name path ↔ store.Denotes name path := by
  constructor
  · intro ⟨located, notDirectory, notSlashed⟩
    exact ⟨(locate_congr hstart h).1 located, h ▸ notDirectory, notSlashed⟩
  · intro ⟨located, notDirectory, notSlashed⟩
    exact ⟨(locate_congr hstart h).2 located, h ▸ notDirectory, notSlashed⟩

end

/-- Names denote the same places after a file has been written. -/
theorem denotes_put : (store.put there content).Denotes name path ↔ store.Denotes name path :=
  denotes_congr (workingDirectory_put store there content) (directories_put store there content)

/-! ## Reading and writing -/

theorem read_eq_ok : store.read name = .ok content ↔
    ∃ path, store.Denotes name path ∧ store.content? path = some content := by
  simp only [read, bind_eq_ok, ensure_eq_ok, exists_and_left, exists_const]
  refine exists_congr fun path => ?_
  cases store.content? path with
  | none =>
    exact ⟨fun ⟨_, _, h⟩ => (nomatch h), fun ⟨_, h⟩ => (nomatch h)⟩
  | some there =>
    simp only [bind_eq_ok, ensure_eq_ok, exists_and_left, exists_const, pure_eq_ok,
      Option.some.injEq]
    constructor
    · intro ⟨located, notDirectory, notSlashed, same⟩
      exact ⟨⟨located, notDirectory, notSlashed⟩, same⟩
    · intro ⟨⟨located, notDirectory, notSlashed⟩, same⟩
      exact ⟨located, notDirectory, notSlashed, same⟩

theorem write_of_denotes (h : store.Denotes name path) : store.write name content =
    match store.refusals.lookup path with
    | some reason => .error (.refused reason)
    | none => .ok (store.put path content) := by
  rw [write, h.located, ok_bind, ensure_of_pos ⟨h.notDirectory, h.notSlashed⟩]
  rfl

theorem Opens.write (h : store.Opens name path) :
    store.write name content = .ok (store.put path content) := by
  rw [write_of_denotes h.toDenotes, h.notRefused]

theorem Barred.write (h : store.Barred name e) : store.write name content = .error e := by
  cases h with
  | unreachable h => rw [FileStore.write, h]; rfl
  | @directory path h hdirectory =>
    have hnot : ¬(path ∉ store.directories ∧ endsInSlash name = false) := by
      rintro ⟨hpath, hname⟩
      rcases hdirectory with hdirectory | hslash
      · exact hpath hdirectory
      · rw [hname] at hslash
        nomatch hslash
    rw [FileStore.write, h, ok_bind, ensure_of_neg hnot]
    rfl
  | refused h hrefused => rw [write_of_denotes h, hrefused]

/-- A name either opens a file or is barred. -/
theorem opens_or_barred (store : FileStore) (name : String) :
    (∃ path, store.Opens name path) ∨ ∃ e, store.Barred name e := by
  cases hlocate : store.locate name with
  | error e => exact .inr ⟨e, .unreachable hlocate⟩
  | ok path =>
    by_cases hdirectory : path ∈ store.directories ∨ endsInSlash name
    · exact .inr ⟨_, .directory hlocate hdirectory⟩
    · obtain ⟨notDirectory, notSlashed⟩ := not_or.1 hdirectory
      have hdenotes : store.Denotes name path :=
        ⟨hlocate, notDirectory, Bool.eq_false_iff.2 notSlashed⟩
      cases hrefused : store.refusals.lookup path with
      | some reason => exact .inr ⟨_, .refused hdenotes hrefused⟩
      | none => exact .inl ⟨path, hdenotes, hrefused⟩

theorem write_eq_ok : store.write name content = .ok after ↔
    ∃ path, store.Opens name path ∧ after = store.put path content := by
  constructor
  · intro h
    rcases opens_or_barred store name with ⟨path, hopens⟩ | ⟨e, hbarred⟩
    · exact ⟨path, hopens, Except.ok.inj (h.symm.trans hopens.write)⟩
    · rw [hbarred.write] at h
      nomatch h
  · rintro ⟨path, hopens, rfl⟩
    exact hopens.write

/-- The content plays no part in what stands against writing. -/
theorem write_eq_error : store.write name content = .error e ↔ store.Barred name e := by
  constructor
  · intro h
    rcases opens_or_barred store name with ⟨path, hopens⟩ | ⟨e', hbarred⟩
    · rw [hopens.write] at h
      nomatch h
    · rw [hbarred.write] at h
      exact Except.error.inj h ▸ hbarred
  · exact Barred.write

/-- The store `after` has a file of the given content at a place, and is the same everywhere else:
in its files, and in what is read under any name. -/
structure Replaced (store : FileStore) (path : Path) (content : Bytes) (after : FileStore) :
    Prop where
  stored : after.content? path = some content
  others : ∀ other, other ≠ path → after.content? other = store.content? other
  workingDirectory : after.workingDirectory = store.workingDirectory
  directories : after.directories = store.directories
  refusals : after.refusals = store.refusals
  read : ∀ name, store.Denotes name path → after.read name = .ok content
  readOthers : ∀ name, ¬store.Denotes name path → ∀ found,
    after.read name = .ok found ↔ store.read name = .ok found

theorem replaced_put (store : FileStore) (path : Path) (content : Bytes) :
    Replaced store path content (store.put path content) where
  stored := content?_put_self store path content
  others _ hne := content?_put_of_ne hne
  workingDirectory := rfl
  directories := rfl
  refusals := rfl
  read name h := read_eq_ok.2 ⟨path, denotes_put.2 h, content?_put_self ..⟩
  readOthers name hnot found := by
    simp only [read_eq_ok, denotes_put]
    refine exists_congr fun other => and_congr_right fun hother => ?_
    have hne : other ≠ path := fun h => hnot (h ▸ hother)
    rw [content?_put_of_ne hne]

end FileStore

namespace Grammar

open FileStore (Replaced)

variable {g : Grammar} {name : String} {store : FileStore} {bytes : Bytes} {e : CompileError}

/-! ## Compiling into a file -/

theorem writeTo_of_error (h : g.compile = .error e) : g.writeTo name store = (.error e, store) := by
  rw [writeTo, h]

theorem writeTo_of_opens {path : Path} (h : g.compile = .ok bytes)
    (hopens : store.Opens name path) :
    g.writeTo name store = (.ok (), store.put path bytes) := by
  simp only [writeTo, h, hopens.write]

theorem writeTo_of_barred {fault : FileError} (h : g.compile = .ok bytes)
    (hbarred : store.Barred name fault) :
    g.writeTo name store = (.error (.file name fault), store) := by
  simp only [writeTo, h, hbarred.write]

/-- What becomes of a store when a description is compiled into a file of it. -/
structure AllOrNothing (g : Grammar) (name : String) (store : FileStore) : Prop where
  /-- Either the terminals are in disorder or the draft does not fit. -/
  uncompiled : ∀ e, g.compile = .error e → g.writeTo name store = (.error e, store) ∧
    ((∃ s, FirstLate g.symbols s ∧ e = .terminalAfterRule s.name) ∨ ∃ fault, e = .encode fault)
  unopened : ∀ bytes fault, g.compile = .ok bytes → store.Barred name fault →
    g.writeTo name store = (.error (.file name fault), store)
  written : ∀ bytes path, g.compile = .ok bytes → store.Opens name path →
    ∃ after, g.writeTo name store = (.ok (), after) ∧ Replaced store path bytes after ∧
      after.read name = .ok bytes
  /-- One of the three is the case. -/
  decided : (∃ e, g.compile = .error e) ∨
    ∃ bytes, g.compile = .ok bytes ∧
      ((∃ fault, store.Barred name fault) ∨ ∃ path, store.Opens name path)
  unchanged : ∀ e, (g.writeTo name store).1 = .error e → (g.writeTo name store).2 = store
  /-- What is read back from the file is loaded like what was compiled, wherever the two lie. -/
  loads : (g.writeTo name store).1 = .ok () → ∀ (loader : Loader) (compiled stored : Region),
    g.compile = .ok compiled.bytes →
    (g.writeTo name store).2.read name = .ok stored.bytes →
      loader.load (some stored) =
        (loader.load (some compiled)).map fun l => { l with artifact := stored }

theorem allOrNothing (g : Grammar) (name : String) (store : FileStore) :
    AllOrNothing g name store where
  uncompiled e h := by
    refine ⟨writeTo_of_error h, ?_⟩
    rcases compile_eq_error.1 h with hlate | ⟨_, fault, _, _, rfl⟩
    · exact .inl hlate
    · exact .inr ⟨fault, rfl⟩
  unopened bytes fault h hbarred := writeTo_of_barred h hbarred
  written bytes path h hopens := by
    have hreplaced := FileStore.replaced_put store path bytes
    exact ⟨_, writeTo_of_opens h hopens, hreplaced, hreplaced.read name hopens.toDenotes⟩
  decided := by
    cases h : g.compile with
    | error e => exact .inl ⟨e, rfl⟩
    | ok bytes => exact .inr ⟨bytes, rfl, (FileStore.opens_or_barred store name).symm⟩
  unchanged e he := by
    cases h : g.compile with
    | error e' => rw [writeTo_of_error h]
    | ok bytes =>
      rcases FileStore.opens_or_barred store name with ⟨path, hopens⟩ | ⟨fault, hbarred⟩
      · rw [writeTo_of_opens h hopens] at he
        nomatch he
      · rw [writeTo_of_barred h hbarred]
  loads hok loader compiled stored h hread := by
    rcases FileStore.opens_or_barred store name with ⟨path, hopens⟩ | ⟨fault, hbarred⟩
    · have hreplaced := FileStore.replaced_put store path compiled.bytes
      rw [writeTo_of_opens h hopens, hreplaced.read name hopens.toDenotes] at hread
      exact Loader.load_moved (Except.ok.inj hread).symm
    · rw [writeTo_of_barred h hbarred] at hok
      nomatch hok

/-- A store with an artifact that is longer than the next one, a file beside it, a file of the same
name at the root and a file that is closed to writing. -/
def shelf : FileStore where
  workingDirectory := ["home"]
  directories := [[], ["home"], ["home", "out"], ["out"]]
  files := [(["home", "out", "x.bin"], Bytes.zeros 400), (["home", "out", "notes"], [7]),
    (["out", "x.bin"], [2]), (["seal"], [1])]
  refusals := [(["seal"], "Permission denied (os error 13)")]

/-- A description that does not compile, a directory and a closed file leave the store as it is. The
longer artifact is replaced as a whole, and nothing else is. -/
theorem allOrNothing_shelf :
    misordered.writeTo "out/x.bin" shelf = (.error (.terminalAfterRule "indent"), shelf) ∧
    mixed.writeTo "out/." shelf = (.error (.file "out/." .isDirectory), shelf) ∧
    mixed.writeTo "/seal" shelf =
      (.error (.file "/seal" (.refused "Permission denied (os error 13)")), shelf) ∧
    ∃ bytes after, mixed.compile = .ok bytes ∧ bytes.length < 400 ∧
      mixed.writeTo "./out//x.bin" shelf = (.ok (), after) ∧
      after.read "out/x.bin" = .ok bytes ∧ after.read "/home/../home/out/x.bin" = .ok bytes ∧
      after.read "out/notes" = .ok [7] ∧ after.read "/out/x.bin" = .ok [2] := by
  have hfile : shelf.Denotes "out/x.bin" ["home", "out", "x.bin"] := ⟨rfl, by decide, rfl⟩
  have habsolute : shelf.Denotes "/home/../home/out/x.bin" ["home", "out", "x.bin"] :=
    ⟨rfl, by decide, rfl⟩
  have hopens : shelf.Opens "./out//x.bin" ["home", "out", "x.bin"] := ⟨⟨rfl, by decide, rfl⟩, rfl⟩
  have hseal : shelf.Denotes "/seal" ["seal"] := ⟨rfl, by decide, rfl⟩
  have hnotes : shelf.locate "out/notes" = .ok ["home", "out", "notes"] := rfl
  have hroot : shelf.locate "/out/x.bin" = .ok ["out", "x.bin"] := rfl
  refine ⟨((allOrNothing misordered "out/x.bin" shelf).uncompiled _ rfl).1,
    (allOrNothing mixed "out/." shelf).unopened _ _ rfl (.directory rfl (.inl (by decide))),
    (allOrNothing mixed "/seal" shelf).unopened _ _ rfl (.refused hseal rfl), ?_⟩
  obtain ⟨after, hwritten, hreplaced, -⟩ :=
    (allOrNothing mixed "./out//x.bin" shelf).written _ _ rfl hopens
  exact ⟨_, after, rfl, by decide +kernel, hwritten, hreplaced.read _ hfile,
    hreplaced.read _ habsolute,
    (hreplaced.readOthers _ (FileStore.not_denotes_of_located hnotes (by decide)) _).2 rfl,
    (hreplaced.readOthers _ (FileStore.not_denotes_of_located hroot (by decide)) _).2 rfl⟩

end Grammar

end GrammarArtifact
