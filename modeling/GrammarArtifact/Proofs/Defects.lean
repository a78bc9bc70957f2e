import GrammarArtifact.Proofs.Loading
import GrammarArtifact.Proofs.RoundTrip

/-! What a loader finds wrong with the artifact of a draft. `Draft.defects` lists the conditions
that a draft fails, in the order in which they are checked; the loader reports the first of them,
and accepts the artifact when there is none (`Draft.Stored.check_eq`). The layout, the number of
states and the lengths of all tables are right in every artifact that is encoded. -/

namespace GrammarArtifact

namespace Defect

/-- The defect of a condition that does not hold. -/
def failing (p : Prop) [Decidable p] (defect : Defect) : List Defect := if p then [] else [defect]

/-- The answer of checks that find the given defects in turn: the first one, if there is any. -/
def verdict {α : Type} (a : α) : List Defect → Except Defect α
  | [] => .ok a
  | defect :: _ => .error defect

section

variable {α : Type} {a : α} {p : Prop} [Decidable p] {defect : Defect} {rest : List Defect}

theorem failing_eq_nil : failing p defect = [] ↔ p := by
  rw [failing]
  split
  · next hp => exact iff_of_true rfl hp
  · next hp => exact iff_of_false (List.cons_ne_nil _ _) hp

theorem ensure_bind_verdict :
    (ensure p defect >>= fun _ => verdict a rest) = verdict a (failing p defect ++ rest) := by
  by_cases hp : p
  · rw [ensure_of_pos hp, failing, if_pos hp]
    rfl
  · rw [ensure_of_neg hp, failing, if_neg hp]
    rfl

theorem verdict_eq_ok {a' : α} : verdict a rest = .ok a' ↔ rest = [] ∧ a = a' := by
  cases rest with
  | nil => exact ⟨fun h => ⟨rfl, Except.ok.inj h⟩, fun h => congrArg _ h.2⟩
  | cons d rest => exact ⟨fun h => (nomatch h), fun h => (nomatch h.1)⟩

end

end Defect

namespace Draft

open Defect Integrity

/-! ## Consistent drafts -/

/-- The counts of a draft that are greater than the ones that bound them. -/
def countDefects (d : Draft) : List Defect :=
  failing (d.tokens.toNat ≤ d.symbols.length)
    (.inconsistentCounts .tokens d.tokens .symbols d.symbolCount) ++
  (failing (d.externals ≤ d.tokens)
    (.inconsistentCounts .externals d.externals .tokens d.tokens) ++
  failing (d.largeStates ≤ d.states)
    (.inconsistentCounts .largeStates d.largeStates .states d.states))

/-- The names of a draft that an artifact does not keep. -/
def nameDefects (d : Draft) : List Defect :=
  let symbolNuls := StringTable.nuls d.symbolNames
  let fieldNuls := StringTable.nuls d.fields
  failing (d.name ≠ "") .badName ++
  (failing (symbolNuls = 0) (.symbolCount d.symbolCount (d.symbols.length + symbolNuls)) ++
  failing (fieldNuls = 0) (.fieldCount d.fieldCount (d.fields.length + fieldNuls)))

/-- What is wrong with a draft, in the order in which a loader looks at it. -/
def defects (d : Draft) : List Defect := d.countDefects ++ d.nameDefects

/-- The counts of a draft bound each other, and its names can be told apart. -/
structure Consistent (d : Draft) : Prop where
  tokens : d.tokens.toNat ≤ d.symbols.length
  externals : d.externals ≤ d.tokens
  largeStates : d.largeStates ≤ d.states
  name : d.name ≠ ""
  symbolNames : ∀ name ∈ d.symbolNames, StringTable.nul ∉ name.toList
  fieldNames : ∀ name ∈ d.fields, StringTable.nul ∉ name.toList

theorem defects_eq_nil {d : Draft} : d.defects = [] ↔ d.Consistent := by
  simp only [defects, countDefects, nameDefects, List.append_eq_nil_iff, failing_eq_nil,
    StringTable.nuls_eq_zero]
  constructor
  · intro ⟨⟨ht, hx, hl⟩, hn, hs, hf⟩
    exact ⟨ht, hx, hl, hn, hs, hf⟩
  · intro ⟨ht, hx, hl, hn, hs, hf⟩
    exact ⟨⟨ht, hx, hl⟩, hn, hs, hf⟩

/-- Every version has the texts and the symbol metadata first, and behind them only tables. -/
theorem ofVersion_eq_append (version : UInt32) : ∃ rest, Section.ofVersion version =
    [.name, .symbolNames, .symbolMetadata] ++ .fieldNames :: rest ∧
      ∀ s ∈ rest, s ∉ [.name, .symbolNames, .fieldNames] := by
  unfold Section.ofVersion
  split
  · exact ⟨_, rfl, by decide⟩
  · exact ⟨_, rfl, by decide⟩

namespace Stored

variable {d : Draft} {h : Header}

/-! ## Counts -/

theorem check_counts (hd : d.Stored h) {α : Type} (a : α) (rest : List Defect) :
    (h.counts.check >>= fun _ => verdict a rest) = verdict a (d.countDefects ++ rest) := by
  have htokens : d.tokens ≤ d.symbolCount ↔ d.tokens.toNat ≤ d.symbols.length := by
    rw [UInt32.le_iff_toNat_le, hd.symbolCount]
  -- Encoding has bounded the states already, so the last check passes.
  have hstates : d.counts.states ≤ Layout.maxStates := hd.statesBounded
  rw [hd.counts, Counts.check_eq]
  simp only [bind_assoc, ensure_of_pos hstates, ok_bind]
  rw [countDefects, List.append_assoc, List.append_assoc, ← ensure_bind_verdict,
    ← ensure_bind_verdict, ← ensure_bind_verdict, ← ensure_congr htokens]
  rfl

/-! ## Contents -/

theorem checkContent_name (d : Draft) (c : Counts) : checkContent c .name (d.sectionBytes .name) =
    ensure (d.name ≠ "") .badName >>= fun _ => .ok (some d.name) := by
  simp only [sectionBytes, checkContent, checkName, Bytes.text?_eq_some_iff.2 rfl, bind_assoc]
  rfl

theorem checkContent_symbolNames (hd : d.Stored h) :
    checkContent d.counts .symbolNames (d.sectionBytes .symbolNames) =
      ensure (StringTable.nuls d.symbolNames = 0) (.symbolCount d.symbolCount
        (d.symbols.length + StringTable.nuls d.symbolNames)) >>= fun _ => .ok none := by
  have hcount : d.symbols.length + StringTable.nuls d.symbolNames = d.counts.symbols.toNat ↔
      StringTable.nuls d.symbolNames = 0 := by
    rw [show d.counts.symbols = d.symbolCount from rfl, hd.symbolCount]
    exact Nat.add_eq_left
  have hlength : d.symbolNames.length = d.symbols.length := List.length_map _
  rw [sectionBytes, checkContent, countStrings, StringTable.count_encode_ofText, hlength,
    ← ensure_congr hcount]
  rfl

theorem checkContent_fieldNames (hd : d.Stored h) :
    checkContent d.counts .fieldNames (d.sectionBytes .fieldNames) =
      ensure (StringTable.nuls d.fields = 0) (.fieldCount d.fieldCount
        (d.fields.length + StringTable.nuls d.fields)) >>= fun _ => .ok none := by
  have hcount : d.fields.length + StringTable.nuls d.fields = d.counts.fields.toNat ↔
      StringTable.nuls d.fields = 0 := by
    rw [show d.counts.fields = d.fieldCount from rfl, hd.fieldCount]
    exact Nat.add_eq_left
  rw [sectionBytes, checkContent, countStrings, StringTable.count_encode_ofText,
    ← ensure_congr hcount]
  rfl

/-- Tables have the length that the counts imply, whatever the counts are. -/
theorem checkContent_table (hd : d.Stored h) {s : Section}
    (hs : s ∉ [.name, .symbolNames, .fieldNames]) :
    checkContent d.counts s (d.sectionBytes s) = .ok none := by
  have hlength := d.length_sectionBytes s
  have hsymbols : d.counts.symbols.toNat = d.symbols.length := hd.symbolCount
  cases s with
  | name | symbolNames | fieldNames => exact absurd hs (by decide)
  | symbolMetadata =>
    refine (fixed_eq_ok (tableLength?_singleton (by decide))).2 ⟨?_, rfl⟩
    rw [hlength, hsymbols]
    exact Nat.mul_comm _ _
  | parseTable =>
    have hlarge := d.largeStates.toNat_lt
    have hhalved := hd.symbolsHalved
    have hproduct : 2 * d.largeStates.toNat * d.symbols.length ≤ Layout.maxLong := by
      calc 2 * d.largeStates.toNat * d.symbols.length =
            d.largeStates.toNat * (2 * d.symbols.length) := by
              rw [Nat.mul_comm 2, Nat.mul_assoc]
        _ ≤ Layout.maxWord * Layout.maxWord := Nat.mul_le_mul (Nat.le_of_lt_succ hlarge) hhalved
        _ ≤ Layout.maxLong := by decide
    refine (fixed_eq_ok (tableLength?_pair (by decide) ?_)).2 ⟨?_, rfl⟩
    · rw [hsymbols]
      exact hproduct
    · rw [hlength, sectionLength_parseTable hhalved, hsymbols]
      rfl
  | lexModes =>
    refine (fixed_eq_ok (tableLength?_singleton (by decide))).2 ⟨?_, rfl⟩
    rw [hlength, sectionLength_lexModes]
    rfl
  | primaryStateIds =>
    refine (fixed_eq_ok (tableLength?_singleton (by decide))).2 ⟨?_, rfl⟩
    rw [hlength]
    exact Nat.mul_comm _ _

/-- Tables leave the language name as it is. -/
theorem foldlM_tables (hd : d.Stored h) {tables : List Section} {name : Option String}
    (htables : ∀ s ∈ tables, s ∉ [.name, .symbolNames, .fieldNames]) :
    tables.foldlM (fun name s => checkContent d.counts s (d.sectionBytes s) >>= fun found =>
      .ok (found.or name)) name = .ok name := by
  induction tables with
  | nil => rfl
  | cons s rest ih =>
    obtain ⟨hs, hrest⟩ := List.forall_mem_cons.1 htables
    rw [List.foldlM_cons, checkContent_table hd hs]
    exact ih hrest

theorem check_contents (hd : d.Stored h) :
    (checkContents h.counts d.payload none h.sections >>= fun name =>
      name.elim (.error .badName) .ok) = verdict d.name d.nameDefects := by
  obtain ⟨tables, hsections, htables⟩ := ofVersion_eq_append d.version
  -- Only the name and the two string tables can fail; all other sections are tables.
  rw [checkContents_of_slice? hd.contents, h.map_fst_sections, hd.version, hd.counts, hsections]
  simp only [List.cons_append, List.nil_append, List.foldlM_cons, checkContent_symbolNames hd,
    checkContent_fieldNames hd, foldlM_tables hd htables, checkContent_name,
    checkContent_table hd (s := .symbolMetadata) (by decide), bind_assoc, ok_bind]
  rw [nameDefects, ← ensure_bind_verdict, ← ensure_bind_verdict, ← List.append_nil (failing _ _),
    ← ensure_bind_verdict]
  rfl

/-! ## The whole artifact -/

theorem check_eq (hd : d.Stored h) :
    h.check (h.encode ++ d.payload) = verdict d.name d.defects := by
  have hlayout : checkLayout d.payload.length none h.sections = .ok () :=
    checkLayout_eq_ok.2 ⟨hd.contiguous.laid.1, fun _ hq => (nomatch hq)⟩
  rw [Header.check, Header.payload_encode, hlayout, ok_bind, hd.check_contents, hd.check_counts]
  rfl

end Stored

variable {d : Draft} {loader : Loader} {artifact : Region}

theorem load_eq_verdict (henc : d.encode = .ok artifact.bytes)
    (hmem : d.version ∈ loader.versions) : ∃ h, loader.load (some artifact) =
      (verdict d.name d.defects).mapError .defective >>= fun name => .ok ⟨artifact, h, name⟩ := by
  obtain ⟨h, hh, hbytes⟩ := encode_eq_ok.1 henc
  have hd := stored_of_header hh
  have hdecode : Header.decode artifact.bytes = .ok h := by
    rw [← hbytes]
    exact h.decode_encode _
  refine ⟨h, ?_⟩
  rw [Loader.load_of_decode hdecode (hd.version ▸ hmem), ← hbytes, hd.check_eq]

theorem exists_load_eq_ok (henc : d.encode = .ok artifact.bytes)
    (hmem : d.version ∈ loader.versions) :
    (∃ l, loader.load (some artifact) = .ok l) ↔ d.Consistent := by
  obtain ⟨h, hload⟩ := load_eq_verdict henc hmem
  simp only [hload, bind_eq_ok, mapError_eq_ok, verdict_eq_ok, ← defects_eq_nil]
  constructor
  · intro ⟨_, _, ⟨hnil, _⟩, _⟩
    exact hnil
  · intro hnil
    exact ⟨_, _, ⟨hnil, rfl⟩, rfl⟩

theorem load_eq_error (henc : d.encode = .ok artifact.bytes) (hmem : d.version ∈ loader.versions)
    {e : LoadError} :
    loader.load (some artifact) = .error e ↔ d.defects.head?.map .defective = some e := by
  obtain ⟨h, hload⟩ := load_eq_verdict henc hmem
  rw [hload]
  cases d.defects with
  | nil => exact ⟨fun h => (nomatch h), fun h => (nomatch h)⟩
  | cons defect rest =>
    exact ⟨fun h => congrArg _ (Except.error.inj h), fun h => congrArg _ (Option.some.inj h)⟩

/-- A loader of its version accepts the artifact of a draft exactly when the draft is consistent,
and otherwise reports the first of its defects and nothing else. -/
theorem load_encode (loader : Loader) (henc : d.encode = .ok artifact.bytes)
    (hmem : d.version ∈ loader.versions) :
    ((∃ l, loader.load (some artifact) = .ok l) ↔ d.Consistent) ∧
      ∀ e, loader.load (some artifact) = .error e ↔
        d.defects.head?.map .defective = some e :=
  ⟨exists_load_eq_ok henc hmem, fun _ => load_eq_error henc hmem⟩

theorem load_encode_crooked : ∃ artifact : Region, crooked.encode = .ok artifact.bytes ∧
    crooked.version ∈ VersionRange.supported ∧
    (default : Loader).load (some artifact) =
      .error (.defective (.inconsistentCounts .tokens 5 .symbols 2)) :=
  ⟨.whole 0 _, rfl, by decide, ((@load_encode crooked _ default rfl (by decide)).2 _).2 rfl⟩

end Draft

end GrammarArtifact
