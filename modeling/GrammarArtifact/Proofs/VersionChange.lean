import GrammarArtifact.Proofs.Checks
import GrammarArtifact.Proofs.Defects
import GrammarArtifact.Proofs.Limits

/-! One draft in two versions. Artifacts of version 14 and later have state ids, and these stand
behind everything else, so nothing that stands in front of them depends on the version: not how much
fits (`Draft.Excess.of_withVersion`), not the words and the bytes of an artifact
(`Draft.extended_of_header`), and not what a loader finds in it (`Draft.loadedAlike`). -/

namespace GrammarArtifact

namespace Section

variable {v w : UInt32}

theorem ofVersion_of_lt (hv : v < 14) : ofVersion v = all.dropLast := if_pos hv

theorem ofVersion_of_le (hw : 14 ≤ w) : ofVersion w = all := if_neg (UInt32.not_lt.2 hw)

theorem stateIds_mem_ofVersion (hw : 14 ≤ w) : .primaryStateIds ∈ ofVersion w :=
  mem_ofVersion.2 fun _ => hw

theorem ofVersion_eq_concat (hv : v < 14) (hw : 14 ≤ w) :
    ofVersion w = ofVersion v ++ [.primaryStateIds] := by
  rw [ofVersion_of_lt hv, ofVersion_of_le hw]
  rfl

end Section

namespace Format

theorem toNat_get_header (bytes : Bytes) (c : Count) :
    ((header bytes).counts.get c).toNat = count bytes c := by
  cases c <;> exact toNat_ofNat_word _ _

theorem declared_encode_append (h : Header) (payload : Bytes) :
    word (h.encode ++ payload) 36 = (Section.ofVersion h.version).length := by
  rw [(framed_encode_append h payload).declared, ← length_ofVersion, version_encode_append]

end Format

/-- Two loads give the same answer: languages with the same name, counts and sections apart from the
state ids, or the same defect. -/
inductive LoadedAlike : Except LoadError Language → Except LoadError Language → Prop
  | accepted {k l : Language} (name : k.name = l.name) (counts : k.counts = l.counts)
    (sections : ∀ s, s ≠ .primaryStateIds →
      ∃ data, k.section? s = some data ∧ l.section? s = some data) : LoadedAlike (.ok k) (.ok l)
  | refused (defect : Defect) :
    LoadedAlike (.error (.defective defect)) (.error (.defective defect))

namespace Draft

/-- The same draft for another version. -/
def withVersion (d : Draft) (v : UInt32) : Draft := { d with version := v }

/-- The artifact `a` of a draft in a version without state ids, and its artifact `b` in a version
with them. -/
structure Extended (d : Draft) (a b : Bytes) : Prop where
  counts : ∀ c, Format.count a c = Format.count b c
  entries : ∀ s, s ≠ .primaryStateIds →
    Format.start a s = Format.start b s ∧ Format.size a s = Format.size b s
  sectionCounts : Format.word a 36 = 6 ∧ Format.word b 36 = 7
  payload : Format.payload b = Format.payload a ++ Format.contents b .primaryStateIds
  stateIdsLength : (Format.contents b .primaryStateIds).length = 2 * d.states.toNat
  stateIds : LittleEndian.halves? (Format.contents b .primaryStateIds) =
    some (List.range d.states.toNat)

/-- What becomes of a draft in a version `v` and in a version `w`. -/
structure SameTable (d : Draft) (v w : UInt32) : Prop where
  refused : ∀ e, (d.withVersion v).encode = .error e → (d.withVersion w).encode = .error e
  /-- All that the second version can have against a draft is that its state ids start too late. -/
  stateIdsTooLarge : ∀ a, (d.withVersion v).encode = .ok a → ∀ e,
    (d.withVersion w).encode = .error e ↔
      e = .sectionTooLarge .primaryStateIds ∧ Layout.maxWord < (Format.payload a).length
  extended : ∀ a b, (d.withVersion v).encode = .ok a → (d.withVersion w).encode = .ok b →
    d.Extended a b
  loadedAlike : ∀ a b : Region, (d.withVersion v).encode = .ok a.bytes →
    (d.withVersion w).encode = .ok b.bytes → ∀ loader loader' : Loader, v ∈ loader.versions →
      w ∈ loader'.versions → LoadedAlike (loader.load (some a)) (loader'.load (some b))

variable {d : Draft} {v w : UInt32} {h h' : Header} {e : EncodeError}

/-! ## Encoding -/

/-- A later version has the same to say against a draft. -/
theorem Excess.withVersion (hvw : v ≤ w) (he : (d.withVersion v).Excess e) :
    (d.withVersion w).Excess e := by
  cases he with
  | states h => exact .states h
  | symbols hstates h => exact .symbols hstates h
  | fields hstates hsymbols h => exact .fields hstates hsymbols h
  | payload hnumbered hs h hbefore =>
    refine .payload ⟨hnumbered.states, hnumbered.symbols, hnumbered.fields⟩ ?_ h hbefore
    exact Section.mem_ofVersion.2 fun hids =>
      UInt32.le_trans (Section.mem_ofVersion.1 hs hids) hvw

/-- What it has to say beyond that is only about the state ids. -/
theorem Excess.of_withVersion (v : UInt32) (he : (d.withVersion w).Excess e) :
    (d.withVersion v).Excess e ∨
      e = .sectionTooLarge .primaryStateIds ∧ d.TooLarge .primaryStateIds := by
  cases he with
  | states h => exact .inl (.states h)
  | symbols hstates h => exact .inl (.symbols hstates h)
  | fields hstates hsymbols h => exact .inl (.fields hstates hsymbols h)
  | @payload s hnumbered _ h hbefore =>
    by_cases hs : s = .primaryStateIds
    · subst hs
      exact .inr ⟨rfl, h⟩
    · exact .inl (.payload ⟨hnumbered.states, hnumbered.symbols, hnumbered.fields⟩
        (Section.mem_ofVersion_of_ne v hs) h hbefore)

/-- State ids are short, so they are too large only where they start too late. -/
theorem tooLarge_stateIds (hstates : d.states.toNat ≤ 65536) :
    d.TooLarge .primaryStateIds ↔ Layout.maxWord < d.exactOffset .primaryStateIds := by
  have hlength : d.exactLength .primaryStateIds = 2 * d.states.toNat := rfl
  refine or_iff_left (Nat.not_lt.2 ?_)
  rw [hlength, Layout.maxWord]
  omega

/-- Without state ids, a payload is what would stand in front of them. -/
theorem length_payload_withVersion (hv : v < 14) (hh : (d.withVersion v).header = .ok h) :
    (d.withVersion v).payload.length = d.exactOffset .primaryStateIds := by
  have hsections : Section.ofVersion (d.withVersion v).version = Section.all.dropLast :=
    Section.ofVersion_of_lt hv
  rw [length_payload hh, hsections]
  rfl

theorem encode_eq_error_of_header (hv : v < 14) (hw : 14 ≤ w)
    (hh : (d.withVersion v).header = .ok h) : (d.withVersion w).encode = .error e ↔
      e = .sectionTooLarge .primaryStateIds ∧
        Layout.maxWord < (d.withVersion v).payload.length := by
  obtain ⟨⟨hstates, hsymbols, hfields⟩, hfits⟩ := exists_header_iff.1 ⟨h, hh⟩
  rw [encode_eq_error, length_payload_withVersion hv hh, ← @tooLarge_stateIds d hstates]
  constructor
  · intro he
    refine (he.of_withVersion v).resolve_left fun he => ?_
    rw [header_eq_error.2 he] at hh
    nomatch hh
  · rintro ⟨rfl, h⟩
    refine .payload ⟨hstates, hsymbols, hfields⟩ (Section.stateIds_mem_ofVersion hw) h ?_
    intro t ht
    exact hfits t (Section.mem_ofVersion_of_ne v (Section.index_lt_six.1 ht))

/-! ## Artifacts -/

theorem extended_of_header (hv : v < 14) (hw : 14 ≤ w) (hh : (d.withVersion v).header = .ok h)
    (hh' : (d.withVersion w).header = .ok h') :
    d.Extended (h.encode ++ (d.withVersion v).payload)
      (h'.encode ++ (d.withVersion w).payload) := by
  have hd := stored_of_header hh
  have hd' := stored_of_header hh'
  have hids := hd'.contents_eq (Section.stateIds_mem_ofVersion hw)
  constructor
  case counts =>
    intro c
    rw [← Format.toNat_get_header, ← Format.toNat_get_header, Format.header_encode_append,
      Format.header_encode_append, hd.counts, hd'.counts]
    rfl
  case entries =>
    intro s hs
    obtain ⟨hstart, hsize⟩ := (writtenExactly_of_header hh).entries s
      (Section.mem_ofVersion_of_ne v hs)
    obtain ⟨hstart', hsize'⟩ := (writtenExactly_of_header hh').entries s
      (Section.mem_ofVersion_of_ne w hs)
    exact ⟨hstart.trans hstart'.symm, hsize.trans hsize'.symm⟩
  case sectionCounts =>
    rw [Format.declared_encode_append, Format.declared_encode_append, hd.version, hd'.version]
    exact ⟨congrArg List.length (Section.ofVersion_of_lt hv),
      congrArg List.length (Section.ofVersion_of_le hw)⟩
  case payload =>
    have hsections : Section.ofVersion (d.withVersion w).version =
        Section.ofVersion (d.withVersion v).version ++ [.primaryStateIds] :=
      Section.ofVersion_eq_concat hv hw
    rw [Format.payload_encode_append, Format.payload_encode_append, hids, payload, hsections,
      List.flatMap_append, List.flatMap_singleton]
    rfl
  case stateIdsLength =>
    rw [hids, length_sectionBytes]
    exact Nat.mul_comm _ _
  case stateIds =>
    rw [hids]
    exact halves?_stateIds hd'

/-! ## Loading -/

variable {loader loader' : Loader} {artifact a b : Region} {l : Language}

/-- What is loaded from the artifact of a draft. -/
theorem language_of_encode (henc : d.encode = .ok artifact.bytes)
    (hl : loader.load (some artifact) = .ok l) : l.counts = d.counts ∧
      ∀ s ∈ Section.ofVersion d.version, l.section? s = some (d.sectionBytes s) := by
  obtain ⟨h, hh, hbytes⟩ := encode_eq_ok.1 henc
  have hd := stored_of_header hh
  have hheader : l.header = h := Loader.header_of_load hl hbytes
  refine ⟨(congrArg Header.counts hheader).trans hd.counts, fun s hs => ?_⟩
  rw [Loader.section?_eq_contents? hl, hheader, ← hbytes]
  exact hd.contents? hs

theorem loadedAlike (henc : (d.withVersion v).encode = .ok a.bytes)
    (henc' : (d.withVersion w).encode = .ok b.bytes) (hv : v ∈ loader.versions)
    (hw : w ∈ loader'.versions) :
    LoadedAlike (loader.load (some a)) (loader'.load (some b)) := by
  obtain ⟨h, hload⟩ := load_eq_verdict henc hv
  obtain ⟨h', hload'⟩ := load_eq_verdict henc' hw
  have hdefects : (d.withVersion v).defects = (d.withVersion w).defects := rfl
  rw [hdefects] at hload
  cases hverdict : (d.withVersion w).defects with
  | nil =>
    rw [hverdict] at hload hload'
    obtain ⟨hcounts, hsections⟩ := language_of_encode henc hload
    obtain ⟨hcounts', hsections'⟩ := language_of_encode henc' hload'
    rw [hload, hload']
    refine .accepted rfl (hcounts.trans hcounts'.symm) fun s hs => ?_
    exact ⟨_, hsections s (Section.mem_ofVersion_of_ne v hs),
      hsections' s (Section.mem_ofVersion_of_ne w hs)⟩
  | cons defect rest =>
    rw [hverdict] at hload hload'
    rw [hload, hload']
    exact .refused defect

/-- Versions without state ids and versions with them encode the same table. -/
theorem sameTable (d : Draft) (hv : v < 14) (hw : 14 ≤ w) : d.SameTable v w where
  refused e henc := by
    refine encode_eq_error.2 ((encode_eq_error.1 henc).withVersion ?_)
    exact UInt32.le_trans (UInt32.le_of_lt hv) hw
  stateIdsTooLarge a henc e := by
    obtain ⟨h, hh, rfl⟩ := encode_eq_ok.1 henc
    rw [Format.payload_encode_append]
    exact encode_eq_error_of_header hv hw hh
  extended a b henc henc' := by
    obtain ⟨h, hh, rfl⟩ := encode_eq_ok.1 henc
    obtain ⟨h', hh', rfl⟩ := encode_eq_ok.1 henc'
    exact extended_of_header hv hw hh hh'
  loadedAlike _ _ henc henc' _ _ hmem hmem' := loadedAlike henc henc' hmem hmem'

theorem consistent_straight (v : UInt32) : (straight.withVersion v).Consistent :=
  defects_eq_nil.1 rfl

/-- A draft with as many large states as fit in front of its lexer mode. -/
def brimming : Draft where
  name := ""
  symbols := [⟨"", .empty⟩]
  states := 1
  largeStates := 2147483646

/-- The first draft has an artifact in either version, and both are loaded; the other one brims over
with state ids. -/
theorem sameTable_straight_brimming : (∃ a b : Region,
    (straight.withVersion 13).encode = .ok a.bytes ∧
      (straight.withVersion 14).encode = .ok b.bytes ∧ straight.Extended a.bytes b.bytes ∧
      LoadedAlike ((default : Loader).load (some a)) ((default : Loader).load (some b)) ∧
      (∃ k, (default : Loader).load (some a) = .ok k) ∧
      ∃ l, (default : Loader).load (some b) = .ok l) ∧
    (∃ a, (brimming.withVersion 13).encode = .ok a) ∧
      (brimming.withVersion 14).encode = .error (.sectionTooLarge .primaryStateIds) := by
  have hstraight := sameTable straight (v := 13) (w := 14) (by decide) (by decide)
  have hbrimming := sameTable brimming (v := 13) (w := 14) (by decide) (by decide)
  refine ⟨⟨.whole 0 _, .whole 0 _, rfl, rfl, hstraight.extended _ _ rfl rfl,
    hstraight.loadedAlike _ _ rfl rfl _ _ (by decide) (by decide),
    (exists_load_eq_ok (d := straight.withVersion 13) rfl (by decide)).2 (consistent_straight 13),
    (exists_load_eq_ok (d := straight.withVersion 14) rfl (by decide)).2 (consistent_straight 14)⟩,
    ?_⟩
  obtain ⟨h, hh⟩ : ∃ h, (brimming.withVersion 13).header = .ok h :=
    exists_header_iff.2 ⟨⟨by decide, by decide, by decide⟩, by decide⟩
  have henc := encode_eq_ok.2 ⟨h, hh, rfl⟩
  refine ⟨⟨_, henc⟩, (hbrimming.stateIdsTooLarge _ henc _).2 ⟨rfl, ?_⟩⟩
  rw [Format.payload_encode_append, length_payload_withVersion (by decide) hh]
  decide

end Draft

end GrammarArtifact
