import GrammarArtifact.Proofs.RoundTrip
import GrammarArtifact.Proofs.Slices

/-! What a runtime may rely on when it is handed a language. A language computes its sections anew
from its header; `Loader.exists_section` says that it finds the slices that were checked, with the
shape that the counts imply. Every index that the counts allow therefore stays in its section. -/

namespace GrammarArtifact

namespace StringTable

variable {data : Bytes} {strings : List Bytes} {n i : Nat}

/-- A string of a table: so many terminated strings stand before it and a terminator follows. -/
def HasString (data : Bytes) (i : Nat) (s : Bytes) : Prop :=
  ∃ before after, data = before ++ (s ++ 0 :: after) ∧
    Terminated before ∧ before.count 0 = i ∧ 0 ∉ s

theorem encode_append (strings later : List Bytes) :
    encode (strings ++ later) = encode strings ++ encode later :=
  List.flatMap_append

/-- A table has a string at each index below the number that is counted. -/
theorem exists_hasString (h : count data = some n) (hi : i < n) : ∃ s, HasString data i s := by
  obtain ⟨strings, rfl, hstrings, rfl⟩ := count_eq_some_iff.1 h
  have hsplit : strings = strings.take i ++ (strings[i] :: strings.drop (i + 1)) := by
    rw [List.getElem_cons_drop, List.take_append_drop]
  refine ⟨strings[i], encode (strings.take i), encode (strings.drop (i + 1)), ?_,
    terminated_encode _, ?_, hstrings _ (List.getElem_mem hi)⟩
  · rw [← encode_cons, ← encode_append, ← hsplit]
  · have hbefore : ∀ s ∈ strings.take i, 0 ∉ s := fun s hs => hstrings s (List.mem_of_mem_take hs)
    rw [count_zero_encode, count_zero_flatten_eq_zero.2 hbefore, List.length_take]
    omega

end StringTable

namespace Section

variable {s : Section} {version : UInt32}

theorem not_mem_ofVersion_iff :
    s ∉ ofVersion version ↔ s = .primaryStateIds ∧ version < stateIdsSince := by
  rw [mem_ofVersion, Classical.not_imp]
  exact and_congr_right fun _ => UInt32.not_le

end Section

namespace Header

theorem getElem?_sections {h : Header} {s : Section} {e : Extent} (he : h.extent? s = some e) :
    h.sections[s.index]? = some (s, e) := by
  have hlt := (List.getElem?_eq_some_iff.1 he).1
  rw [h.length_directory] at hlt
  exact List.getElem?_zip_eq_some.2 ⟨Section.getElem?_index_ofVersion.2 hlt, he⟩

end Header

/-- A section ends before any later one of the directory starts. -/
theorem Integrity.Laid.stop_le_offset {h : Header} {limit : Nat} {s t : Section} {e f : Extent}
    (hlaid : Laid limit h.sections) (hst : s.index < t.index) (he : h.extent? s = some e)
    (hf : h.extent? t = some f) : e.stop ≤ f.offset.toNat := by
  obtain ⟨hi, hse⟩ := List.getElem?_eq_some_iff.1 (Header.getElem?_sections he)
  obtain ⟨hj, htf⟩ := List.getElem?_eq_some_iff.1 (Header.getElem?_sections hf)
  have hle := List.pairwise_iff_getElem.1 hlaid.ordered s.index t.index hi hj hst
  rwa [hse, htf] at hle

namespace Language

variable {l : Language} {s : Section} {data : Bytes} {width n i : Nat}

/-- The entry at an index of a section whose entries are equally wide. -/
def entryAt? (l : Language) (s : Section) (width i : Nat) : Option Bytes :=
  (l.section? s).bind fun data => data.slice? (width * i) width

theorem isSome_entryAt? (hs : l.section? s = some data) (hlength : data.length = width * n)
    (hi : i < n) : (l.entryAt? s width i).isSome := by
  rw [entryAt?, hs, Option.bind_some, Bytes.isSome_slice?, hlength, ← Nat.mul_succ]
  exact Nat.mul_le_mul_left width hi

/-- The entries of a table with rows and columns are counted row by row. -/
theorem isSome_entryAt?_of_row {rows columns j : Nat} (hs : l.section? s = some data)
    (hlength : data.length = width * rows * columns) (hi : i < rows) (hj : j < columns) :
    (l.entryAt? s width (i * columns + j)).isSome := by
  rw [Nat.mul_assoc] at hlength
  refine isSome_entryAt? hs hlength ?_
  calc i * columns + j < i * columns + columns := Nat.add_lt_add_left hj _
    _ = (i + 1) * columns := (Nat.succ_mul i columns).symm
    _ ≤ rows * columns := Nat.mul_le_mul_right columns hi

end Language

namespace Loader

variable {loader : Loader} {artifact : Region} {l : Language} {s : Section}

/-- Every section but the state ids is there. -/
theorem exists_fits (hl : loader.load (some artifact) = .ok l) (hs : s ≠ .primaryStateIds) :
    ∃ data, l.section? s = some data ∧ l.counts.Fits data s := by
  obtain ⟨_, data, -, -, hdata, hfits⟩ :=
    exists_section hl (Section.mem_ofVersion_of_ne l.version hs)
  exact ⟨data, hdata, hfits⟩

theorem section?_eq_none (hl : loader.load (some artifact) = .ok l) :
    l.section? s = none ↔ s = .primaryStateIds ∧ l.version < 14 := by
  show l.section? s = none ↔ s = .primaryStateIds ∧ l.version < Section.stateIdsSince
  rw [← Section.not_mem_ofVersion_iff]
  constructor
  · intro hnone hs
    obtain ⟨e, data, -, -, hsome, -⟩ := exists_section hl hs
    rw [hnone] at hsome
    nomatch hsome
  · intro hs
    rw [section?_of_load hl, Header.extent?_eq_none_iff.2 hs, Option.bind_none]

end Loader

namespace Language

/-- What holds of a language and the artifact it was loaded from. -/
structure Dependable (l : Language) (artifact : Region) : Prop where
  memory : l.artifact = artifact
  header : Header.decode artifact.bytes = .ok l.header
  absent : ∀ s, l.section? s = none ↔ s = .primaryStateIds ∧ l.version < 14
  /-- A section is the part of the artifact that its directory entry delimits. It is the same part
  of the payload that was looked at before the language was there. -/
  present : ∀ s, ¬(s = .primaryStateIds ∧ l.version < 14) → ∃ e data,
    l.header.extent? s = some e ∧ l.section? s = some data ∧
    artifact.bytes.slice? (l.header.payloadOffset + e.offset.toNat) e.length.toNat = some data ∧
    e.slice? (l.header.payload artifact.bytes) = some data
  /-- Different sections have no position in common and follow the order of the directory. -/
  ordered : ∀ s t e f, s.index < t.index → l.header.extent? s = some e →
    l.header.extent? t = some f →
      l.header.payloadOffset + e.stop ≤ l.header.payloadOffset + f.offset.toNat
  name : l.section? .name = some (Bytes.ofText l.name)
  symbolMetadata : ∀ i < l.counts.symbols.toNat, (l.entryAt? .symbolMetadata 1 i).isSome
  symbolNames : ∀ i < l.counts.symbols.toNat, ∃ data s,
    l.section? .symbolNames = some data ∧ StringTable.HasString data i s
  fieldNames : ∀ i < l.counts.fields.toNat, ∃ data s,
    l.section? .fieldNames = some data ∧ StringTable.HasString data i s
  parseTable : ∀ i < l.counts.largeStates.toNat, ∀ j < l.counts.symbols.toNat,
    (l.entryAt? .parseTable 2 (i * l.counts.symbols.toNat + j)).isSome
  lexModes : ∀ j < l.counts.states.toNat, (l.entryAt? .lexModes 4 j).isSome
  stateIds : 14 ≤ l.version → ∀ j < l.counts.states.toNat,
    (l.entryAt? .primaryStateIds 2 j).isSome
  /-- The number of a state takes sixteen bits at most. -/
  stateNumbers : ∀ j < l.counts.states.toNat, j < UInt16.size

end Language

namespace Loader

variable {loader : Loader} {artifact : Region} {l : Language}

theorem dependable_of_load (hl : loader.load (some artifact) = .ok l) : l.Dependable artifact := by
  obtain ⟨hdecode, -, hcheck, hartifact⟩ := load_eq_ok.1 hl
  obtain ⟨hsound, e, hextent, hslice⟩ := Header.check_eq_ok.1 hcheck
  have hfits : ∀ s : Section, s ≠ .primaryStateIds →
      ∃ data, l.section? s = some data ∧ l.counts.Fits data s := by
    intro s hs
    obtain ⟨e, data, -, -, hdata, hfits⟩ :=
      exists_section hl (Section.mem_ofVersion_of_ne l.version hs)
    exact ⟨data, hdata, hfits⟩
  obtain ⟨metadata, hmetadata, hmetadataLength⟩ := hfits .symbolMetadata (by decide)
  obtain ⟨symbols, hsymbols, hsymbolCount⟩ := hfits .symbolNames (by decide)
  obtain ⟨fields, hfields, hfieldCount⟩ := hfits .fieldNames (by decide)
  obtain ⟨table, htable, htableLength⟩ := hfits .parseTable (by decide)
  obtain ⟨modes, hmodes, hmodesLength⟩ := hfits .lexModes (by decide)
  exact {
    memory := hartifact
    header := hdecode
    absent := fun s => section?_eq_none hl
    present := fun s hs => by
      have hs := Classical.not_not.1 (mt Section.not_mem_ofVersion_iff.1 hs)
      obtain ⟨e, data, he, hdata, hsection, -⟩ := exists_section hl hs
      exact ⟨e, data, he, hsection, (Header.slice?_payload hdecode e).symm.trans hdata, hdata⟩
    ordered := fun s t e f hst he hf =>
      Nat.add_le_add_left (hsound.laid.stop_le_offset hst he hf) _
    name := by rw [section?_of_load hl, hextent, Option.bind_some, hslice]
    symbolMetadata := fun i hi => by
      refine Language.isSome_entryAt? hmetadata ?_ hi
      rw [Nat.one_mul]
      exact hmetadataLength
    symbolNames := fun i hi => by
      obtain ⟨s, hs⟩ := StringTable.exists_hasString hsymbolCount hi
      exact ⟨symbols, s, hsymbols, hs⟩
    fieldNames := fun i hi => by
      obtain ⟨s, hs⟩ := StringTable.exists_hasString hfieldCount hi
      exact ⟨fields, s, hfields, hs⟩
    parseTable := fun i hi j hj => Language.isSome_entryAt?_of_row htable htableLength hi hj
    lexModes := fun j hj => Language.isSome_entryAt? hmodes hmodesLength hj
    stateIds := fun hv j hj => by
      obtain ⟨e, ids, -, -, hids, hidsLength⟩ :=
        exists_section hl (Section.mem_ofVersion.2 fun _ => hv)
      exact Language.isSome_entryAt? hids hidsLength hj
    stateNumbers := fun j hj =>
      Nat.lt_of_lt_of_le hj (UInt32.le_iff_toNat_le.1 hsound.bounded.states) }

set_option maxRecDepth 4000 in
theorem dependable_of_load_straight : ∃ bytes l, Draft.straight.encode = .ok bytes ∧
    (default : Loader).load (some (.whole 0 bytes)) = .ok l ∧
    l.counts = Draft.straight.counts ∧ l.Dependable (.whole 0 bytes) := by
  obtain ⟨bytes, l, henc, hl, hcounts⟩ : ∃ bytes l, Draft.straight.encode = .ok bytes ∧
      (default : Loader).load (some (.whole 0 bytes)) = .ok l ∧
      l.counts = Draft.straight.counts :=
    ⟨_, _, rfl, rfl, rfl⟩
  exact ⟨bytes, l, henc, hl, hcounts, dependable_of_load hl⟩

end Loader

end GrammarArtifact
