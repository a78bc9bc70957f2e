import GrammarArtifact.Integrity
import GrammarArtifact.Proofs.StringTables

/-! What the structural checks establish. Each check passes exactly when a condition on the counts,
the extents or the section contents holds that does not mention the order in which the checks are
made: `Integrity.Laid` for the extents, `Counts.Bounded` for the counts, `Counts.Fits` for the
contents of one section. `Header.check_eq_ok` puts them together. -/

namespace GrammarArtifact

/-! ## Layout -/

theorem Extent.offset_le_stop (e : Extent) : e.offset.toNat ≤ e.stop := Nat.le_add_right _ _

namespace Integrity

variable {limit : Nat} {sections rest : List (Section × Extent)}

/-- All sections lie below a limit, and each stops before any later one starts. -/
structure Laid (limit : Nat) (sections : List (Section × Extent)) : Prop where
  inside : ∀ p ∈ sections, p.2.stop ≤ limit
  ordered : sections.Pairwise fun p q => p.2.stop ≤ q.2.offset.toNat

theorem laid_nil : Laid limit [] := ⟨fun _ h => (nomatch h), .nil⟩

theorem laid_cons {p : Section × Extent} : Laid limit (p :: rest) ↔
    p.2.stop ≤ limit ∧ (∀ q ∈ rest, p.2.stop ≤ q.2.offset.toNat) ∧ Laid limit rest := by
  constructor
  · rintro ⟨hin, hord⟩
    obtain ⟨hfirst, hrest⟩ := List.pairwise_cons.1 hord
    exact ⟨hin p List.mem_cons_self, hfirst, fun q hq => hin q (List.mem_cons_of_mem _ hq), hrest⟩
  · rintro ⟨hp, hfirst, hin, hord⟩
    refine ⟨fun q hq => ?_, List.pairwise_cons.2 ⟨hfirst, hord⟩⟩
    rcases List.mem_cons.1 hq with rfl | hq
    · exact hp
    · exact hin q hq

/-- Comparing neighbours is enough: a section stops no earlier than it starts, so the end of the
previous one bounds every later offset. -/
theorem checkLayout_eq_ok {previous : Option (Section × Nat)} {u : Unit} :
    checkLayout limit previous sections = .ok u ↔
      Laid limit sections ∧ ∀ q ∈ previous, ∀ p ∈ sections, q.2 ≤ p.2.offset.toNat := by
  induction sections generalizing previous with
  | nil => exact ⟨fun _ => ⟨laid_nil, fun _ _ _ h => (nomatch h)⟩, fun _ => rfl⟩
  | cons p rest ih =>
    obtain ⟨s, e⟩ := p
    have hstart := e.offset_le_stop
    simp only [checkLayout, bind_eq_ok, ensure_eq_ok, exists_and_left, exists_const,
      option_forM_eq_ok, ih, laid_cons]
    constructor
    · rintro ⟨hin, hprev, hlaid, hrest⟩
      refine ⟨⟨hin, hrest _ rfl, hlaid⟩, fun q hq p hp => ?_⟩
      rcases List.mem_cons.1 hp with rfl | hp
      · exact hprev q hq
      · exact Nat.le_trans (hprev q hq) (Nat.le_trans hstart (hrest _ rfl p hp))
    · rintro ⟨⟨hin, hrest, hlaid⟩, hprev⟩
      refine ⟨hin, fun q hq => hprev q hq _ List.mem_cons_self, hlaid, fun q hq => ?_⟩
      cases hq
      exact hrest

end Integrity

/-! ## Counts -/

/-- The counts bound each other and the states can be numbered. -/
structure Counts.Bounded (c : Counts) : Prop where
  tokens : c.tokens ≤ c.symbols
  externals : c.externals ≤ c.tokens
  largeStates : c.largeStates ≤ c.states
  states : c.states ≤ Layout.maxStates

theorem Counts.check_eq (c : Counts) : c.check = (do
    ensure (c.tokens ≤ c.symbols) (.inconsistentCounts .tokens c.tokens .symbols c.symbols)
    ensure (c.externals ≤ c.tokens) (.inconsistentCounts .externals c.externals .tokens c.tokens)
    ensure (c.largeStates ≤ c.states)
      (.inconsistentCounts .largeStates c.largeStates .states c.states)
    ensure (c.states ≤ Layout.maxStates) (.tooManyStates c.states)) := by
  simp only [check, bounds, List.forM_eq_forM, List.forM_cons, List.forM_nil, bind_assoc,
    pure_bind]
  rfl

theorem Counts.check_eq_ok {c : Counts} {u : Unit} : c.check = .ok u ↔ c.Bounded := by
  simp only [check_eq, bind_eq_ok, ensure_eq_ok, exists_and_left, exists_const]
  constructor
  · rintro ⟨ht, hx, hl, hs⟩
    exact ⟨ht, hx, hl, hs⟩
  · rintro ⟨ht, hx, hl, hs⟩
    exact ⟨ht, hx, hl, hs⟩

/-! ## Contents -/

namespace Integrity

theorem tableLength?_singleton {a : UInt32} {entry : Nat} (h : entry ≤ 4) :
    tableLength? [a] entry = some (entry * a.toNat) := by
  have ha := a.toNat_lt
  have hle : entry * a.toNat ≤ 4 * a.toNat := Nat.mul_le_mul_right _ h
  have hlong : entry * a.toNat ≤ Layout.maxLong := by
    unfold Layout.maxLong
    omega
  simp [tableLength?, hlong]

theorem tableLength?_pair {a b : UInt32} {entry : Nat} (h : entry ≤ 4)
    (hlong : entry * a.toNat * b.toNat ≤ Layout.maxLong) :
    tableLength? [a, b] entry = some (entry * a.toNat * b.toNat) := by
  have ha := a.toNat_lt
  have hle : entry * a.toNat ≤ 4 * a.toNat := Nat.mul_le_mul_right _ h
  have hfirst : entry * a.toNat ≤ Layout.maxLong := by
    unfold Layout.maxLong
    omega
  simp [tableLength?, hfirst, hlong]

/-- A table with a row for each of so many states is never too long. -/
theorem tableLength?_states {a b : UInt32} {entry : Nat} (ha : a ≤ Layout.maxStates)
    (h : entry ≤ 4) : tableLength? [a, b] entry = some (entry * a.toNat * b.toNat) := by
  have hb := b.toNat_lt
  have ha : a.toNat ≤ 65536 := UInt32.le_iff_toNat_le.1 ha
  refine tableLength?_pair h ?_
  calc entry * a.toNat * b.toNat ≤ 4 * 65536 * 2 ^ 32 :=
        Nat.mul_le_mul (Nat.mul_le_mul h ha) (Nat.le_of_lt hb)
    _ ≤ Layout.maxLong := by decide

theorem checkLength_eq_ok {s : Section} {data : Bytes} {n : Nat} {u : Unit} :
    checkLength s data (some n) = .ok u ↔ data.length = n := ensure_eq_ok

theorem countStrings_eq_ok {s : Section} {data : Bytes} {n : Nat} :
    countStrings s data = .ok n ↔ StringTable.count data = some n := by
  unfold countStrings
  split
  · next h => rw [h]; exact ⟨fun h => (nomatch h), fun h => (nomatch h)⟩
  · next h =>
    rw [h]
    exact ⟨fun h => congrArg _ (Except.ok.inj h), fun h => congrArg _ (Option.some.inj h)⟩

theorem checkName_eq_ok {data : Bytes} {name : String} :
    checkName data = .ok name ↔ name ≠ "" ∧ Bytes.ofText name = data := by
  rw [← Bytes.text?_eq_some_iff]
  unfold checkName
  split
  · next h => rw [h]; exact ⟨fun h => (nomatch h), fun ⟨_, h⟩ => (nomatch h)⟩
  · next text h =>
    simp only [h, bind_eq_ok, ensure_eq_ok, exists_and_left, exists_const, pure_eq_ok]
    constructor
    · rintro ⟨hne, rfl⟩
      exact ⟨hne, rfl⟩
    · rintro ⟨hne, ⟨⟩⟩
      exact ⟨hne, rfl⟩

end Integrity

/-- What the counts imply for the contents of a section. -/
def Counts.Fits (c : Counts) (data : Bytes) : Section → Prop
  | .name => ∃ name, name ≠ "" ∧ Bytes.ofText name = data
  | .symbolNames => StringTable.count data = some c.symbols.toNat
  | .symbolMetadata => data.length = c.symbols.toNat
  | .fieldNames => StringTable.count data = some c.fields.toNat
  | .parseTable => data.length = 2 * c.largeStates.toNat * c.symbols.toNat
  | .lexModes => data.length = 4 * c.states.toNat
  | .primaryStateIds => data.length = 2 * c.states.toNat

namespace Integrity

variable {c : Counts} {payload : Bytes}

/-- The language name that a section gives. -/
def nameIn (data : Bytes) : Section → Option String
  | .name => data.text?
  | _ => none

theorem fixed_eq_ok {s : Section} {data : Bytes} {implied : Option Nat} {n : Nat}
    {found : Option String} (h : implied = some n) :
    (checkLength s data implied >>= fun _ => pure none) = .ok found ↔
      data.length = n ∧ found = none := by
  subst h
  simp only [bind_eq_ok, checkLength_eq_ok, exists_and_left, exists_const, pure_eq_ok,
    eq_comm (a := found)]

theorem checkContent_eq_ok (hc : c.Bounded) {s : Section} {data : Bytes} {found : Option String} :
    checkContent c s data = .ok found ↔ c.Fits data s ∧ found = nameIn data s := by
  have hlarge : c.largeStates ≤ Layout.maxStates := UInt32.le_trans hc.largeStates hc.states
  cases s with
  | name =>
    simp only [checkContent, bind_eq_ok, checkName_eq_ok, pure_eq_ok, Counts.Fits, nameIn]
    constructor
    · rintro ⟨name, h, rfl⟩
      exact ⟨⟨name, h⟩, (Bytes.text?_eq_some_iff.2 h.2).symm⟩
    · rintro ⟨⟨name, h⟩, rfl⟩
      exact ⟨name, h, (Bytes.text?_eq_some_iff.2 h.2).symm⟩
  | symbolNames | fieldNames =>
    simp only [checkContent, bind_eq_ok, countStrings_eq_ok, ensure_eq_ok, exists_and_left,
      exists_const, pure_eq_ok, Counts.Fits, nameIn, eq_comm (a := found)]
    constructor
    · rintro ⟨n, h, rfl, hf⟩
      exact ⟨h, hf⟩
    · rintro ⟨h, hf⟩
      exact ⟨_, h, rfl, hf⟩
  | symbolMetadata =>
    have h := tableLength?_singleton (a := c.symbols) (show Layout.metadataEntry ≤ 4 by decide)
    exact fixed_eq_ok (h.trans (congrArg some (Nat.one_mul _)))
  | parseTable => exact fixed_eq_ok (tableLength?_states hlarge (by decide))
  | lexModes | primaryStateIds => exact fixed_eq_ok (tableLength?_singleton (by decide))

/-- A section lies in the payload and has the shape that the counts imply. -/
def FitsAt (c : Counts) (payload : Bytes) (p : Section × Extent) : Prop :=
  ∃ data, p.2.slice? payload = some data ∧ c.Fits data p.1

/-- The language name that a section of the payload gives. -/
def nameAt (payload : Bytes) (p : Section × Extent) : Option String :=
  (p.2.slice? payload).bind fun data => nameIn data p.1

/-- The language name that is kept when sections have been gone through. -/
def nameAfter (payload : Bytes) (name : Option String) (sections : List (Section × Extent)) :
    Option String :=
  sections.foldl (fun name p => (nameAt payload p).or name) name

theorem nameAt_of_ne {p : Section × Extent} (h : p.1 ≠ .name) : nameAt payload p = none := by
  obtain ⟨s, e⟩ := p
  cases s with
  | name => exact absurd rfl h
  | _ => exact Option.bind_fun_none _

theorem nameAfter_of_ne {name : Option String} {sections : List (Section × Extent)}
    (h : ∀ p ∈ sections, p.1 ≠ .name) : nameAfter payload name sections = name := by
  induction sections with
  | nil => rfl
  | cons p rest ih =>
    obtain ⟨hp, hrest⟩ := List.forall_mem_cons.1 h
    show nameAfter payload ((nameAt payload p).or name) rest = name
    rw [nameAt_of_ne hp, Option.none_or, ih hrest]

theorem checkContents_eq_ok (hc : c.Bounded) {name found : Option String}
    {sections : List (Section × Extent)} :
    checkContents c payload name sections = .ok found ↔
      (∀ p ∈ sections, FitsAt c payload p) ∧ found = nameAfter payload name sections := by
  induction sections generalizing name with
  | nil => exact ⟨fun h => ⟨fun _ h => (nomatch h), (Except.ok.inj h).symm⟩, fun h => h.2 ▸ rfl⟩
  | cons p rest ih =>
    obtain ⟨s, e⟩ := p
    rw [List.forall_mem_cons]
    unfold checkContents
    split
    · next hslice =>
      refine ⟨fun h => (nomatch h), fun ⟨⟨⟨data, hdata, _⟩, _⟩, _⟩ => ?_⟩
      rw [hslice] at hdata
      nomatch hdata
    · next data hslice =>
      have hname : nameAt payload (s, e) = nameIn data s := by rw [nameAt, hslice]; rfl
      simp only [bind_eq_ok, checkContent_eq_ok hc, ih]
      constructor
      · rintro ⟨_, ⟨hfits, rfl⟩, hrest, rfl⟩
        exact ⟨⟨⟨data, hslice, hfits⟩, hrest⟩, by rw [← hname]; rfl⟩
      · rintro ⟨⟨⟨data', hslice', hfits⟩, hrest⟩, rfl⟩
        obtain rfl : data = data' := Option.some.inj (hslice.symm.trans hslice')
        exact ⟨_, ⟨hfits, rfl⟩, hrest, by rw [← hname]; rfl⟩

/-- Where all sections lie in the payload, only their contents are left to check. -/
theorem checkContents_of_slice? {contents : Section → Bytes} {name : Option String}
    {sections : List (Section × Extent)}
    (h : ∀ p ∈ sections, p.2.slice? payload = some (contents p.1)) :
    checkContents c payload name sections = (sections.map Prod.fst).foldlM
      (fun name s => checkContent c s (contents s) >>= fun found => .ok (found.or name)) name := by
  induction sections generalizing name with
  | nil => rfl
  | cons p rest ih =>
    obtain ⟨s, e⟩ := p
    obtain ⟨hslice, hrest⟩ := List.forall_mem_cons.1 h
    rw [checkContents, hslice, List.map_cons, List.foldlM_cons, bind_assoc]
    exact bind_congr fun found => ih hrest

end Integrity

/-! ## The whole structure -/

namespace Header

open Integrity

variable {h : Header} {bytes : Bytes} {name : String}

/-- What the structural checks establish of a header and the payload behind it. -/
structure Sound (h : Header) (payload : Bytes) : Prop where
  laid : Laid payload.length h.sections
  bounded : h.counts.Bounded
  fits : ∀ p ∈ h.sections, FitsAt h.counts payload p

/-- The name is the first section, and no other section gives a name. -/
theorem sections_eq_cons (h : Header) : ∃ e rest, h.sections = (.name, e) :: rest ∧
    h.extent? .name = some e ∧ ∀ p ∈ rest, p.1 ≠ .name := by
  obtain ⟨version, counts, directory, hlen⟩ := h
  obtain ⟨later, hver, hlater⟩ : ∃ later, Section.ofVersion version = .name :: later ∧
      ∀ s ∈ later, s ≠ .name := by
    unfold Section.ofVersion
    split
    · exact ⟨_, rfl, by decide⟩
    · exact ⟨_, rfl, by decide⟩
  cases directory with
  | nil => rw [hver] at hlen; nomatch hlen
  | cons e extents =>
    refine ⟨e, later.zip extents, ?_, rfl, fun p hp => hlater _ (List.of_mem_zip hp).1⟩
    show (Section.ofVersion version).zip (e :: extents) = _
    rw [hver]
    rfl

theorem check_eq_ok : h.check bytes = .ok name ↔ h.Sound (h.payload bytes) ∧
    ∃ e, h.extent? .name = some e ∧ e.slice? (h.payload bytes) = some (Bytes.ofText name) := by
  obtain ⟨e, rest, hsections, hextent, hrest⟩ := h.sections_eq_cons
  have hname : nameAfter (h.payload bytes) none h.sections =
      (e.slice? (h.payload bytes)).bind Bytes.text? := by
    rw [hsections]
    exact (nameAfter_of_ne hrest).trans Option.or_none
  simp only [check, bind_eq_ok, checkLayout_eq_ok, Counts.check_eq_ok, exists_and_left,
    exists_const]
  constructor
  · rintro ⟨⟨hlaid, -⟩, hbounded, found, hcontents, hfound⟩
    obtain ⟨hfits, rfl⟩ := (checkContents_eq_ok hbounded).1 hcontents
    refine ⟨⟨hlaid, hbounded, hfits⟩, e, hextent, ?_⟩
    rw [hname] at hfound
    cases hslice : e.slice? (h.payload bytes) with
    | none => rw [hslice] at hfound; nomatch hfound
    | some data =>
      rw [hslice, Option.bind_some] at hfound
      cases htext : data.text? with
      | none => rw [htext] at hfound; nomatch hfound
      | some text =>
        rw [htext] at hfound
        cases hfound
        exact congrArg some (Bytes.text?_eq_some_iff.1 htext).symm
  · rintro ⟨⟨hlaid, hbounded, hfits⟩, e', hextent', hslice⟩
    obtain rfl : e = e' := Option.some.inj (hextent.symm.trans hextent')
    refine ⟨⟨hlaid, fun _ h => (nomatch h)⟩, hbounded, _,
      (checkContents_eq_ok hbounded).2 ⟨hfits, rfl⟩, ?_⟩
    rw [hname, hslice, Option.bind_some, Bytes.text?_eq_some_iff.2 rfl]
    rfl

/-- A name is found whenever the structure is sound. -/
theorem exists_check_eq_ok : (∃ name, h.check bytes = .ok name) ↔ h.Sound (h.payload bytes) := by
  constructor
  · rintro ⟨name, hname⟩
    exact (check_eq_ok.1 hname).1
  · intro hsound
    obtain ⟨e, rest, hsections, hextent, -⟩ := h.sections_eq_cons
    obtain ⟨data, hslice, name, -, rfl⟩ :=
      hsound.fits (.name, e) (hsections ▸ List.mem_cons_self)
    exact ⟨name, check_eq_ok.2 ⟨hsound, e, hextent, hslice⟩⟩

end Header

end GrammarArtifact
