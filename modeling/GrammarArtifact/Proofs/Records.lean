import GrammarArtifact.Schema.Fault
import GrammarArtifact.Schema.Record
import GrammarArtifact.Proofs.Documents
import Mathlib.Data.List.Forall2
import Mathlib.Data.List.Nodup

/-! What readings accept. A record takes a table of distinct keys exactly if every key is the key of
a field and what stands under it fits the field (`Record.ofEntries_eq_ok`); the order of the entries
decides errors only. So a record is read by looking at membership in the table, field by field, and
`Record.required_eq_ok` and `Record.optional_eq_ok` say what each look-up gives. -/

namespace GrammarArtifact

namespace Schema

open Toml (Value)

/-! ## Lists read item by item -/

section

variable {α β : Type} {R S : α → β → Prop} {items : List α}

theorem exists_forall₂_iff : (∃ found, List.Forall₂ R items found) ↔ ∀ v ∈ items, ∃ a, R v a := by
  induction items with
  | nil => exact ⟨fun _ => nofun, fun _ => ⟨[], .nil⟩⟩
  | cons v rest ih =>
    rw [List.forall_mem_cons, ← ih]
    constructor
    · intro ⟨found, h⟩
      cases h with
      | cons first rest => exact ⟨⟨_, first⟩, ⟨_, rest⟩⟩
    · intro ⟨⟨a, first⟩, ⟨later, rest⟩⟩
      exact ⟨a :: later, .cons first rest⟩

theorem forall₂_eq_map_iff {f : β → α} {found : List β} :
    List.Forall₂ (fun v a => v = f a) items found ↔ items = found.map f := by
  rw [← List.forall₂_eq_eq_eq, List.forall₂_map_right_iff]

theorem forall₂_congr_of_mem {found : List β} (h : ∀ v ∈ items, ∀ a, R v a ↔ S v a) :
    List.Forall₂ R items found ↔ List.Forall₂ S items found := by
  induction items generalizing found with
  | nil => rw [List.forall₂_nil_left_iff, List.forall₂_nil_left_iff]
  | cons v rest ih =>
    obtain ⟨first, rest⟩ := List.forall_mem_cons.1 h
    simp only [List.forall₂_cons_left_iff, first, ih rest]

end

/-! ## Values -/

section

variable {α : Type} {v : Value} {item : Reading α}

theorem word_eq_ok {n : UInt32} : word v = .ok n ↔ v = .integer n.toNat := by
  unfold word
  split
  next i =>
    rw [Value.integer.injEq]
    constructor
    · intro h
      split at h
      next bounds =>
        obtain ⟨low, high⟩ := bounds
        have small : i.toNat < 2 ^ 32 := by unfold Layout.maxWord at high; omega
        rw [← Except.ok.inj h, UInt32.toNat_ofNat_of_lt' small, Int.toNat_of_nonneg low]
      next => nomatch h
    · intro same
      have bounds : 0 ≤ i ∧ i ≤ Layout.maxWord := by
        have := n.toNat_lt
        unfold Layout.maxWord
        omega
      rw [if_pos bounds, same, Int.toNat_natCast, UInt32.ofNat_toNat]
  next other => exact ⟨nofun, fun h => (other _ h).elim⟩

theorem exists_word_eq_ok :
    (∃ n, word v = .ok n) ↔ ∃ i, v = .integer i ∧ 0 ≤ i ∧ i ≤ 4294967295 := by
  constructor
  · intro ⟨n, h⟩
    have := n.toNat_lt
    exact ⟨n.toNat, word_eq_ok.1 h, by omega, by omega⟩
  · intro ⟨i, h, low, high⟩
    exact ⟨.ofNat i.toNat, h ▸ if_pos ⟨low, high⟩⟩

theorem text_eq_ok {s : String} : text v = .ok s ↔ v = .string s := by
  cases v with
  | string t =>
    exact ⟨fun h => congrArg _ (Except.ok.inj h), fun h => congrArg _ (Value.string.inj h)⟩
  | _ => exact ⟨nofun, nofun⟩

theorem mapM_eq_ok {items : List Value} {found : List α} :
    items.mapM item = .ok found ↔ List.Forall₂ (fun v a => item v = .ok a) items found := by
  induction items generalizing found with
  | nil => rw [List.mapM_nil, pure_eq_ok, List.forall₂_nil_left_iff, eq_comm]
  | cons v rest ih =>
    rw [List.mapM_cons, bind_eq_ok, List.forall₂_cons_left_iff]
    refine exists_congr fun a => ?_
    rw [bind_eq_ok, ← exists_and_left]
    refine exists_congr fun later => ?_
    rw [pure_eq_ok, ih, eq_comm (a := found)]

theorem sequence_eq_ok {found : List α} :
    sequence item v = .ok found ↔
      ∃ items, v = .array items ∧ List.Forall₂ (fun v a => item v = .ok a) items found := by
  cases v with
  | array items =>
    refine mapM_eq_ok.trans ⟨fun h => ⟨items, rfl, h⟩, fun ⟨_, same, h⟩ => ?_⟩
    exact Value.array.inj same ▸ h
  | _ => exact ⟨nofun, nofun⟩

end

/-! ## Texts -/

section

variable {α : Type} {parse : String → Option Toml.Document}
  {read : Toml.Document → Except Mismatch α} {text : String} {document : Toml.Document}

/-- A text is read as what its document is read as. -/
theorem ofTextWith_eq_ok {a : α} (h : parse text = some document) :
    ofTextWith parse read text = .ok a ↔ read document = .ok a := by
  rw [ofTextWith, h]
  exact mapError_eq_ok

theorem ofTextWith_of_none (h : parse text = none) :
    ofTextWith parse read text = .error .invalidDocument := by
  rw [ofTextWith, h]

end

/-! ## Entries -/

section

variable {α : Type} {entries : List (String × Value)} {key : String} {v : Value}

theorem mem_keys (h : (key, v) ∈ entries) : key ∈ entries.map Prod.fst :=
  List.mem_map.2 ⟨_, h, rfl⟩

theorem lookup_eq_none : entries.lookup key = none ↔ key ∉ entries.map Prod.fst := by
  rw [List.lookup_eq_none_iff, List.mem_map, not_exists]
  refine forall_congr' fun e => ?_
  rw [not_and, bne_iff_ne, ne_comm]

theorem lookup_eq_some (distinct : (entries.map Prod.fst).Nodup) :
    entries.lookup key = some v ↔ (key, v) ∈ entries := by
  induction entries with
  | nil => exact ⟨nofun, nofun⟩
  | cons e rest ih =>
    obtain ⟨k, there⟩ := e
    obtain ⟨fresh, distinct⟩ := List.nodup_cons.1 distinct
    rw [List.mem_cons, Prod.mk.injEq]
    by_cases same : key = k
    · subst same
      have absent : (key, v) ∉ rest := fun h => fresh (mem_keys h)
      simp [absent, eq_comm]
    · rw [List.lookup_cons, beq_eq_false_iff_ne.2 same, ih distinct]
      simp [same]

/-- Under one key there is one value. -/
theorem eq_of_mem_entries (distinct : (entries.map Prod.fst).Nodup) {v' : Value}
    (h : (key, v) ∈ entries) (h' : (key, v') ∈ entries) : v = v' :=
  Option.some.inj (((lookup_eq_some distinct).2 h).symm.trans ((lookup_eq_some distinct).2 h'))

/-- Whatever stands under a key is fit to be read as something, and then it is read as something:
as what stands there, or as the default where nothing does. -/
theorem forall_entry_iff (distinct : (entries.map Prod.fst).Nodup) (key : String)
    (R : Value → α → Prop) (default : α) :
    (∀ v, (key, v) ∈ entries → ∃ a, R v a) ↔
      ∃ a, (∃ v, (key, v) ∈ entries ∧ R v a) ∨ key ∉ entries.map Prod.fst ∧ a = default := by
  constructor
  · intro h
    by_cases there : key ∈ entries.map Prod.fst
    · obtain ⟨⟨_, v⟩, hv, rfl⟩ := List.mem_map.1 there
      obtain ⟨a, ha⟩ := h v hv
      exact ⟨a, .inl ⟨v, hv, ha⟩⟩
    · exact ⟨default, .inr ⟨there, rfl⟩⟩
  · intro ⟨a, h⟩ v hv
    rcases h with ⟨w, hw, ha⟩ | ⟨absent, _⟩
    · exact ⟨a, eq_of_mem_entries distinct hw hv ▸ ha⟩
    · exact (absent (mem_keys hv)).elim

theorem mem_text_iff {s : String} :
    (∃ v, (key, v) ∈ entries ∧ text v = .ok s) ↔ (key, .string s) ∈ entries := by
  simp only [text_eq_ok, exists_eq_right]

theorem mem_word_iff {n : UInt32} :
    (∃ v, (key, v) ∈ entries ∧ word v = .ok n) ↔ (key, .integer n.toNat) ∈ entries := by
  simp only [word_eq_ok, exists_eq_right]

/-! ## Records -/

theorem Field.check_of {read : Reading α} :
    (Field.of key read).check v = .ok () ↔ ∃ a, read v = .ok a := by
  change (read v).map _ = _ ↔ _
  cases read v with
  | error e => exact ⟨nofun, nofun⟩
  | ok a => exact ⟨fun _ => ⟨a, rfl⟩, fun _ => rfl⟩

namespace Record

variable {r : Record} {seen : List String} {source : Source} {read : Reading α} {a : α}

/-- Keys that stand for a field whose check the value passes, each of them once. -/
theorem checkEntries_eq_ok :
    r.checkEntries seen entries = .ok () ↔
      (entries.map Prod.fst).Nodup ∧ (∀ e ∈ entries, e.1 ∉ seen) ∧
        ∀ e ∈ entries, ∃ field, r.fields.find? (·.key == e.1) = some field ∧
          field.check e.2 = .ok () := by
  induction entries generalizing seen with
  | nil => exact ⟨fun _ => ⟨.nil, nofun, nofun⟩, fun _ => rfl⟩
  | cons e rest ih =>
    obtain ⟨k, v⟩ := e
    rw [checkEntries]
    split
    next unknown =>
      refine ⟨nofun, fun ⟨_, _, fits⟩ => ?_⟩
      obtain ⟨field, found, -⟩ := fits _ List.mem_cons_self
      exact nomatch unknown.symm.trans found
    next field found =>
      rw [bind_eq_ok]
      constructor
      · intro ⟨_, unseen, h⟩
        obtain ⟨_, fits, h⟩ := bind_eq_ok.1 h
        obtain ⟨distinct, others, each⟩ := ih.1 h
        refine ⟨List.nodup_cons.2 ⟨fun there => ?_, distinct⟩, ?_, ?_⟩
        · obtain ⟨e, he, same⟩ := List.mem_map.1 there
          exact others e he (List.mem_cons.2 (.inl same))
        · exact List.forall_mem_cons.2 ⟨ensure_eq_ok.1 unseen, fun e he there =>
            others e he (List.mem_cons_of_mem _ there)⟩
        · exact List.forall_mem_cons.2 ⟨⟨field, found, fits⟩, each⟩
      · intro ⟨distinct, unseen, each⟩
        obtain ⟨fresh, distinct⟩ := List.nodup_cons.1 distinct
        obtain ⟨unseen, others⟩ := List.forall_mem_cons.1 unseen
        obtain ⟨⟨field', found', fits⟩, each⟩ := List.forall_mem_cons.1 each
        cases found.symm.trans found'
        refine ⟨(), ensure_of_pos unseen, bind_eq_ok.2 ⟨(), fits, ih.2 ⟨distinct, ?_, each⟩⟩⟩
        intro e he there
        rcases List.mem_cons.1 there with same | there
        · exact fresh (List.mem_map.2 ⟨e, he, same⟩)
        · exact others e he there

theorem find?_eq_some (keys : r.keys.Nodup) {field : Field} :
    r.fields.find? (·.key == key) = some field ↔ field ∈ r.fields ∧ field.key = key := by
  constructor
  · intro h
    exact ⟨List.mem_of_find?_eq_some h, by simpa using List.find?_some h⟩
  · intro ⟨there, same⟩
    have found : (r.fields.find? (·.key == key)).isSome :=
      List.find?_isSome.2 ⟨field, there, by simp [same]⟩
    obtain ⟨other, h⟩ := Option.isSome_iff_exists.1 found
    have same' : other.key = key := by simpa using List.find?_some h
    rw [h, List.inj_on_of_nodup_map keys (List.mem_of_find?_eq_some h) there
      (same'.trans same.symm)]

section

variable (distinct : (entries.map Prod.fst).Nodup)
include distinct

/-- The fields of a record are distinct themselves, which makes each the one found under its key. -/
theorem ofEntries_eq_ok (keys : r.keys.Nodup) :
    r.ofEntries entries = .ok source ↔
      source = .keyed entries ∧ (∀ e ∈ entries, e.1 ∈ r.keys) ∧
        ∀ field ∈ r.fields, ∀ v, (field.key, v) ∈ entries → field.check v = .ok () := by
  rw [ofEntries, bind_eq_ok]
  constructor
  · intro ⟨_, h, same⟩
    obtain ⟨-, -, each⟩ := checkEntries_eq_ok.1 h
    refine ⟨(pure_eq_ok.1 same).symm, fun e he => ?_, fun field hfield v hv => ?_⟩
    · obtain ⟨field, found, -⟩ := each e he
      obtain ⟨there, same⟩ := (find?_eq_some keys).1 found
      exact List.mem_map.2 ⟨field, there, same⟩
    · obtain ⟨field', found, fits⟩ := each _ hv
      cases found.symm.trans ((find?_eq_some keys).2 ⟨hfield, rfl⟩)
      exact fits
  · intro ⟨same, known, each⟩
    refine ⟨(), checkEntries_eq_ok.2 ⟨distinct, fun e _ => nofun, fun (k, v) he => ?_⟩,
      pure_eq_ok.2 same.symm⟩
    obtain ⟨field, there, same⟩ := List.mem_map.1 (known _ he)
    exact ⟨field, (find?_eq_some keys).2 ⟨there, same⟩, each field there v (same ▸ he)⟩

theorem required_eq_ok :
    r.required (.keyed entries) key read = .ok a ↔ ∃ v, (key, v) ∈ entries ∧ read v = .ok a := by
  rw [required, value?]
  cases h : entries.lookup key with
  | none =>
    refine ⟨nofun, fun ⟨v, hv, _⟩ => ?_⟩
    exact (lookup_eq_none.1 h (mem_keys hv)).elim
  | some v =>
    have there := (lookup_eq_some distinct).1 h
    refine ⟨fun h => ⟨v, there, h⟩, fun ⟨v', hv', h⟩ => ?_⟩
    exact eq_of_mem_entries distinct hv' there ▸ h

theorem optional_eq_ok {default : α} :
    r.optional (.keyed entries) key read default = .ok a ↔
      (∃ v, (key, v) ∈ entries ∧ read v = .ok a) ∨ key ∉ entries.map Prod.fst ∧ a = default := by
  rw [optional, value?]
  cases h : entries.lookup key with
  | none =>
    have absent := lookup_eq_none.1 h
    refine ⟨fun h => .inr ⟨absent, (Except.ok.inj h).symm⟩, ?_⟩
    intro h
    rcases h with ⟨v, hv, _⟩ | ⟨_, same⟩
    · exact (absent (mem_keys hv)).elim
    · exact same ▸ rfl
  | some v =>
    have there := (lookup_eq_some distinct).1 h
    refine ⟨fun h => .inl ⟨v, there, h⟩, ?_⟩
    intro h
    rcases h with ⟨v', hv', h⟩ | ⟨absent, _⟩
    · exact eq_of_mem_entries distinct hv' there ▸ h
    · exact (absent (mem_keys there)).elim

/-- Reading a record comes down to its known keys, its fields one by one and the rest of the
reading. -/
theorem bind_ofEntries_eq_ok (keys : r.keys.Nodup) {f : Source → Except Mismatch α} :
    r.ofEntries entries >>= f = .ok a ↔
      (∀ e ∈ entries, e.1 ∈ r.keys) ∧ f (.keyed entries) = .ok a ∧
        ∀ field ∈ r.fields, ∀ v, (field.key, v) ∈ entries → field.check v = .ok () := by
  rw [bind_eq_ok]
  constructor
  · intro ⟨source, hsource, h⟩
    obtain ⟨rfl, known, fits⟩ := (ofEntries_eq_ok distinct keys).1 hsource
    exact ⟨known, h, fits⟩
  · intro ⟨known, h, fits⟩
    exact ⟨_, (ofEntries_eq_ok distinct keys).2 ⟨rfl, known, fits⟩, h⟩

/-- A field that was read passes its check, which no other entry has to. -/
theorem check_of_required (h : ∃ v, (key, v) ∈ entries ∧ read v = .ok a) :
    ∀ v, (key, v) ∈ entries → (Field.of key read).check v = .ok () := by
  obtain ⟨v, hv, hread⟩ := h
  intro v' hv'
  exact Field.check_of.2 ⟨a, eq_of_mem_entries distinct hv hv' ▸ hread⟩

theorem check_of_optional {p : Prop}
    (h : (∃ v, (key, v) ∈ entries ∧ read v = .ok a) ∨ key ∉ entries.map Prod.fst ∧ p) :
    ∀ v, (key, v) ∈ entries → (Field.of key read).check v = .ok () := by
  rcases h with h | ⟨absent, -⟩
  · exact check_of_required distinct h
  · exact fun v hv => (absent (mem_keys hv)).elim

end

end Record

end

end Schema

end GrammarArtifact
