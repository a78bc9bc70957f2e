import GrammarArtifact.Grammar.Read
import GrammarArtifact.Proofs.Records
import GrammarArtifact.Proofs.Writing
import Mathlib

/-! Which documents describe a grammar table, and which table. `Accepted` says what a document has
to look like and `Describes` what it then says, both by membership in its tables; a value is filled
in for an absent key and for nothing else. Each of the three records of a description is settled by
one lemma (`StateNumbers.read_eq_ok`, `GrammarSymbol.read_eq_ok`, `Grammar.ofDocument_eq_ok`), all
of them from what `Schema.Record` accepts in general. For texts, the parser that makes documents of
them can be any (`Grammar.exact_ofTextWith`); the text for a given grammar table is the one that
`Toml.Document.write` makes of its document. -/

namespace GrammarArtifact

open Schema (Record)
open Toml (Value)

variable {entries : List (String × Value)}

/-- An integer that fits thirty-two bits. -/
def IsWord (v : Value) : Prop := ∃ i : Int, v = .integer i ∧ 0 ≤ i ∧ i ≤ 4294967295

theorem isWord_iff {v : Value} : IsWord v ↔ ∃ n : UInt32, v = .integer n.toNat := by
  simp only [IsWord, ← Schema.exists_word_eq_ok, Schema.word_eq_ok]

/-! ## Numbers of states -/

namespace StateNumbers

variable {n : StateNumbers}

structure Accepted (entries : List (String × Value)) : Prop where
  known : ∀ e ∈ entries, e.1 ∈ ["total", "large"]
  total : ∃ v, ("total", v) ∈ entries ∧ IsWord v
  large : ∃ v, ("large", v) ∈ entries ∧ IsWord v

structure Describes (entries : List (String × Value)) (n : StateNumbers) : Prop where
  known : ∀ e ∈ entries, e.1 ∈ ["total", "large"]
  total : ("total", .integer n.total.toNat) ∈ entries
  large : ("large", .integer n.large.toNat) ∈ entries

theorem accepted_iff : Accepted entries ↔ ∃ n, Describes entries n := by
  constructor
  · intro ⟨known, ⟨v, htotal, isTotal⟩, ⟨w, hlarge, isLarge⟩⟩
    obtain ⟨total, rfl⟩ := isWord_iff.1 isTotal
    obtain ⟨large, rfl⟩ := isWord_iff.1 isLarge
    exact ⟨⟨total, large⟩, known, htotal, hlarge⟩
  · intro ⟨n, known, htotal, hlarge⟩
    exact ⟨known, ⟨_, htotal, isWord_iff.2 ⟨_, rfl⟩⟩, ⟨_, hlarge, isWord_iff.2 ⟨_, rfl⟩⟩⟩

theorem read_eq_ok (distinct : (entries.map Prod.fst).Nodup) :
    read (.table entries) = .ok n ↔ Describes entries n := by
  refine (Record.bind_ofEntries_eq_ok distinct (r := record) (by decide)).trans ?_
  simp only [bind_eq_ok, pure_eq_ok, Record.required_eq_ok distinct]
  constructor
  · intro ⟨known, ⟨total, htotal, large, hlarge, same⟩, _⟩
    obtain rfl := same
    exact ⟨known, Schema.mem_word_iff.1 htotal, Schema.mem_word_iff.1 hlarge⟩
  · intro ⟨known, total, large⟩
    have htotal := Schema.mem_word_iff.2 total
    have hlarge := Schema.mem_word_iff.2 large
    refine ⟨known, ⟨n.total, htotal, n.large, hlarge, rfl⟩, ?_⟩
    exact List.forall_mem_cons.2 ⟨Record.check_of_required distinct htotal,
      List.forall_mem_cons.2 ⟨Record.check_of_required distinct hlarge, nofun⟩⟩

/-- The numbers as a table. -/
def toEntries (n : StateNumbers) : List (String × Value) :=
  [("large", .integer n.large.toNat), ("total", .integer n.total.toNat)]

theorem describes_toEntries (n : StateNumbers) : Describes n.toEntries n := by
  constructor <;> simp [toEntries]

theorem plain_toEntries (n : StateNumbers) {depth : Nat} :
    (Value.table n.toEntries).Plain (depth + 1) := by
  have keys : ["large", "total"].Pairwise (· < ·) := by decide
  refine .table (Toml.ascending_iff.2 keys) ?_
  exact List.forall_mem_cons.2 ⟨.word _, List.forall_mem_cons.2 ⟨.word _, nofun⟩⟩

end StateNumbers

/-! ## Symbols -/

namespace GrammarSymbol

variable {s : GrammarSymbol}

/-- A symbol in a table of its own, with its kind as a string. -/
def WrittenOut (v : Value) : Prop :=
  ∃ entries, v = .table entries ∧ ∀ k, ("kind", k) ∈ entries → ∃ label, k = .string label

/-- The name of one of the six kinds. -/
def IsKind (v : Value) : Prop :=
  ∃ label ∈ ["token", "literal", "external", "rule", "hidden", "supertype"], v = .string label

structure Accepted (entries : List (String × Value)) : Prop where
  known : ∀ e ∈ entries, e.1 ∈ ["name", "kind"]
  name : ∃ name, ("name", .string name) ∈ entries
  kind : ∀ k, ("kind", k) ∈ entries → IsKind k

structure Describes (entries : List (String × Value)) (s : GrammarSymbol) : Prop where
  known : ∀ e ∈ entries, e.1 ∈ ["name", "kind"]
  name : ("name", .string s.name) ∈ entries
  kind : ("kind", .string s.kind.label) ∈ entries ∨ "kind" ∉ entries.map Prod.fst ∧ s.kind = .rule

theorem isKind_iff {v : Value} : IsKind v ↔ ∃ kind : SymbolKind, v = .string kind.label := by
  constructor
  · intro ⟨label, hlabel, h⟩
    obtain ⟨kind, -, rfl⟩ :=
      List.mem_map.1 (show label ∈ SymbolKind.all.map SymbolKind.label from hlabel)
    exact ⟨kind, h⟩
  · intro ⟨kind, h⟩
    refine ⟨kind.label, ?_, h⟩
    cases kind <;> simp [SymbolKind.label]

theorem accepted_iff (distinct : (entries.map Prod.fst).Nodup) :
    Accepted entries ↔ ∃ s, Describes entries s := by
  have kinds := Schema.forall_entry_iff distinct "kind" (fun v kind => v = .string kind.label)
    SymbolKind.rule
  simp only [← isKind_iff, exists_eq_right] at kinds
  constructor
  · intro ⟨known, ⟨name, hname⟩, hkinds⟩
    obtain ⟨kind, hkind⟩ := kinds.1 hkinds
    exact ⟨⟨name, kind⟩, known, hname, hkind⟩
  · intro ⟨s, known, hname, hkind⟩
    exact ⟨known, ⟨_, hname⟩, kinds.2 ⟨_, hkind⟩⟩

theorem read_kind_eq_ok {label : String} {kind : SymbolKind} :
    SymbolKind.read (.string label) = .ok kind ↔ label = kind.label := by
  rw [SymbolKind.read, SymbolKind.ofName]
  cases h : SymbolKind.ofLabel? label with
  | none => exact ⟨nofun, fun same => by simp [same, SymbolKind.ofLabel?_label] at h⟩
  | some k =>
    have same := SymbolKind.label_of_ofLabel? h
    refine ⟨fun h => Except.ok.inj h ▸ same.symm, fun same' => ?_⟩
    rw [same', SymbolKind.ofLabel?_label] at h
    exact congrArg _ (Option.some.inj h).symm

theorem mem_kind_iff {kind : SymbolKind}
    (kinds : ∀ k, ("kind", k) ∈ entries → ∃ label, k = .string label) :
    (∃ k, ("kind", k) ∈ entries ∧ SymbolKind.read k = .ok kind) ↔
      ("kind", .string kind.label) ∈ entries := by
  constructor
  · intro ⟨k, hk, hread⟩
    obtain ⟨label, rfl⟩ := kinds k hk
    exact read_kind_eq_ok.1 hread ▸ hk
  · exact fun hk => ⟨_, hk, read_kind_eq_ok.2 rfl⟩

theorem read_eq_ok (distinct : (entries.map Prod.fst).Nodup)
    (kinds : ∀ k, ("kind", k) ∈ entries → ∃ label, k = .string label) :
    read (.table entries) = .ok s ↔ Describes entries s := by
  refine (Record.bind_ofEntries_eq_ok distinct (r := record) (by decide)).trans ?_
  simp only [bind_eq_ok, pure_eq_ok, Record.required_eq_ok distinct,
    Record.optional_eq_ok distinct]
  constructor
  · intro ⟨known, ⟨name, hname, kind, hkind, same⟩, _⟩
    obtain rfl := same
    exact ⟨known, Schema.mem_text_iff.1 hname, hkind.imp_left (mem_kind_iff kinds).1⟩
  · intro ⟨known, name, kind⟩
    have hname := Schema.mem_text_iff.2 name
    have hkind := kind.imp_left (mem_kind_iff kinds).2
    refine ⟨known, ⟨s.name, hname, s.kind, hkind, rfl⟩, ?_⟩
    exact List.forall_mem_cons.2 ⟨Record.check_of_required distinct hname,
      List.forall_mem_cons.2 ⟨Record.check_of_optional distinct hkind, nofun⟩⟩

/-- The symbol as a table. -/
def toEntries (s : GrammarSymbol) : List (String × Value) :=
  [("kind", .string s.kind.label), ("name", .string s.name)]

theorem describes_toEntries (s : GrammarSymbol) : Describes s.toEntries s := by
  constructor <;> simp [toEntries]

theorem plain_toEntries (s : GrammarSymbol) {depth : Nat} :
    (Value.table s.toEntries).Plain (depth + 1) := by
  have keys : ["kind", "name"].Pairwise (· < ·) := by decide
  refine .table (Toml.ascending_iff.2 keys) ?_
  exact List.forall_mem_cons.2 ⟨.string _, List.forall_mem_cons.2 ⟨.string _, nofun⟩⟩

end GrammarSymbol

/-! ## Grammar tables -/

namespace Grammar

variable {document : Toml.Document} {g : Grammar}

/-- The numbers of states and the symbols stand in tables, and kinds are strings. -/
structure WrittenOut (document : Toml.Document) : Prop where
  states : ∀ v, ("states", v) ∈ document → ∃ entries, v = .table entries
  symbols : ∀ items, ("symbols", .array items) ∈ document → ∀ v ∈ items, GrammarSymbol.WrittenOut v

structure Accepted (document : Toml.Document) : Prop where
  known : ∀ e ∈ document, e.1 ∈ ["name", "version", "states", "fields", "symbols"]
  name : ∃ name, ("name", .string name) ∈ document
  states : ∃ entries, ("states", .table entries) ∈ document ∧ StateNumbers.Accepted entries
  version : ∀ v, ("version", v) ∈ document → IsWord v
  fields : ∀ v, ("fields", v) ∈ document →
    ∃ items, v = .array items ∧ ∀ item ∈ items, ∃ name, item = .string name
  symbols : ∀ v, ("symbols", v) ∈ document →
    ∃ items, v = .array items ∧
      ∀ item ∈ items, ∃ entries, item = .table entries ∧ GrammarSymbol.Accepted entries

/-- An array of tables, one for each symbol, in the order of the symbols. -/
def ListsSymbols (v : Value) (symbols : List GrammarSymbol) : Prop :=
  ∃ items, v = .array items ∧
    List.Forall₂ (fun item s => ∃ entries, item = .table entries ∧
      GrammarSymbol.Describes entries s) items symbols

structure Describes (document : Toml.Document) (g : Grammar) : Prop where
  known : ∀ e ∈ document, e.1 ∈ ["name", "version", "states", "fields", "symbols"]
  name : ("name", .string g.name) ∈ document
  version : ("version", .integer g.version.toNat) ∈ document ∨
    "version" ∉ document.map Prod.fst ∧ g.version = 14
  states : ∃ entries, ("states", .table entries) ∈ document ∧
    StateNumbers.Describes entries g.states
  fields : ("fields", .array (g.fields.map .string)) ∈ document ∨
    "fields" ∉ document.map Prod.fst ∧ g.fields = []
  symbols : (∃ v, ("symbols", v) ∈ document ∧ ListsSymbols v g.symbols) ∨
    "symbols" ∉ document.map Prod.fst ∧ g.symbols = []

theorem mem_fields_iff {fields : List String} :
    (∃ v, ("fields", v) ∈ document ∧ readFields v = .ok fields) ↔
      ("fields", .array (fields.map .string)) ∈ document := by
  simp only [readFields, Schema.sequence_eq_ok, Schema.text_eq_ok, Schema.forall₂_eq_map_iff,
    exists_eq_right]

section

variable (ordered : document.Ordered) (written : WrittenOut document)
include ordered written

theorem mem_states_iff {n : StateNumbers} :
    (∃ v, ("states", v) ∈ document ∧ StateNumbers.read v = .ok n) ↔
      ∃ entries, ("states", .table entries) ∈ document ∧ StateNumbers.Describes entries n := by
  constructor
  · intro ⟨v, hv, hread⟩
    obtain ⟨entries, rfl⟩ := written.states v hv
    exact ⟨entries, hv, (StateNumbers.read_eq_ok (ordered.of_entry hv).nodup).1 hread⟩
  · intro ⟨entries, hv, h⟩
    exact ⟨_, hv, (StateNumbers.read_eq_ok (ordered.of_entry hv).nodup).2 h⟩

theorem readSymbols_eq_ok {v : Value} (hv : ("symbols", v) ∈ document)
    {symbols : List GrammarSymbol} : readSymbols v = .ok symbols ↔ ListsSymbols v symbols := by
  refine Schema.sequence_eq_ok.trans (exists_congr fun items => and_congr_right fun h => ?_)
  subst h
  refine Schema.forall₂_congr_of_mem fun item hitem s => ?_
  obtain ⟨entries, rfl, kinds⟩ := written.symbols items hv item hitem
  have inner : Toml.Document.Ordered entries := (ordered.of_entry hv).of_item hitem
  rw [GrammarSymbol.read_eq_ok inner.nodup kinds]
  refine ⟨fun h => ⟨entries, rfl, h⟩, fun ⟨_, same, h⟩ => ?_⟩
  exact Value.table.inj same ▸ h

theorem mem_symbols_iff {symbols : List GrammarSymbol} :
    (∃ v, ("symbols", v) ∈ document ∧ readSymbols v = .ok symbols) ↔
      ∃ v, ("symbols", v) ∈ document ∧ ListsSymbols v symbols :=
  exists_congr fun _ => and_congr_right fun hv => readSymbols_eq_ok ordered written hv

theorem ofDocument_eq_ok : ofDocument document = .ok g ↔ Describes document g := by
  have distinct := ordered.nodup
  refine (Record.bind_ofEntries_eq_ok distinct (r := record) (by decide)).trans ?_
  simp only [bind_eq_ok, pure_eq_ok, Record.required_eq_ok distinct,
    Record.optional_eq_ok distinct]
  constructor
  · intro ⟨known, ⟨name, hname, version, hversion, states, hstates, fields, hfields, symbols,
      hsymbols, same⟩, _⟩
    obtain rfl := same
    exact ⟨known, Schema.mem_text_iff.1 hname, hversion.imp_left Schema.mem_word_iff.1,
      (mem_states_iff ordered written).1 hstates, hfields.imp_left mem_fields_iff.1,
      hsymbols.imp_left (mem_symbols_iff ordered written).1⟩
  · intro ⟨known, name, version, states, fields, symbols⟩
    have hname := Schema.mem_text_iff.2 name
    have hversion := version.imp_left Schema.mem_word_iff.2
    have hstates := (mem_states_iff ordered written).2 states
    have hfields := fields.imp_left mem_fields_iff.2
    have hsymbols := symbols.imp_left (mem_symbols_iff ordered written).2
    refine ⟨known, ⟨g.name, hname, g.version, hversion, g.states, hstates, g.fields, hfields,
      g.symbols, hsymbols, rfl⟩, ?_⟩
    exact List.forall_mem_cons.2 ⟨Record.check_of_required distinct hname,
      List.forall_mem_cons.2 ⟨Record.check_of_optional distinct hversion,
      List.forall_mem_cons.2 ⟨Record.check_of_required distinct hstates,
      List.forall_mem_cons.2 ⟨Record.check_of_optional distinct hfields,
      List.forall_mem_cons.2 ⟨Record.check_of_optional distinct hsymbols, nofun⟩⟩⟩⟩⟩

end

/-! ## Acceptance -/

theorem exists_fields_iff {v : Value} :
    (∃ items, v = .array items ∧ ∀ item ∈ items, ∃ name, item = .string name) ↔
      ∃ fields : List String, v = .array (fields.map .string) := by
  simp only [← Schema.exists_forall₂_iff, Schema.forall₂_eq_map_iff]
  constructor
  · intro ⟨items, h, fields, same⟩
    exact ⟨fields, same ▸ h⟩
  · intro ⟨fields, h⟩
    exact ⟨_, h, fields, rfl⟩

theorem exists_symbols_iff {v : Value} (ordered : v.Ordered) :
    (∃ items, v = .array items ∧
        ∀ item ∈ items, ∃ entries, item = .table entries ∧ GrammarSymbol.Accepted entries) ↔
      ∃ symbols, ListsSymbols v symbols := by
  unfold ListsSymbols
  rw [exists_comm]
  refine exists_congr fun items => ?_
  rw [exists_and_left, Schema.exists_forall₂_iff]
  refine and_congr_right fun h => forall₂_congr fun item hitem => ?_
  rw [exists_comm]
  refine exists_congr fun entries => ?_
  rw [exists_and_left]
  refine and_congr_right fun same => GrammarSymbol.accepted_iff ?_
  subst h same
  exact (ordered.of_item hitem).nodup

theorem accepted_iff (ordered : document.Ordered) :
    Accepted document ↔ ∃ g, Describes document g := by
  have distinct := ordered.nodup
  have versions := Schema.forall_entry_iff distinct "version"
    (fun v (n : UInt32) => v = .integer n.toNat) 14
  have fields := Schema.forall_entry_iff distinct "fields"
    (fun v (fields : List String) => v = .array (fields.map .string)) []
  have symbols := Schema.forall_entry_iff distinct "symbols" ListsSymbols []
  simp only [exists_eq_right] at versions fields
  constructor
  · intro ⟨known, ⟨name, hname⟩, ⟨entries, hentries, hstates⟩, hversion, hfields, hsymbols⟩
    obtain ⟨states, hstates⟩ := StateNumbers.accepted_iff.1 hstates
    obtain ⟨version, hversion⟩ := versions.1 fun v hv => isWord_iff.1 (hversion v hv)
    obtain ⟨fields, hfields⟩ := fields.1 fun v hv => exists_fields_iff.1 (hfields v hv)
    obtain ⟨symbols, hsymbols⟩ := symbols.1 fun v hv =>
      (exists_symbols_iff (ordered.of_entry hv)).1 (hsymbols v hv)
    exact ⟨⟨name, version, states, fields, symbols⟩, known, hname, hversion,
      ⟨entries, hentries, hstates⟩, hfields, hsymbols⟩
  · intro ⟨g, known, hname, hversion, ⟨entries, hentries, hstates⟩, hfields, hsymbols⟩
    exact ⟨known, ⟨_, hname⟩, ⟨entries, hentries, StateNumbers.accepted_iff.2 ⟨_, hstates⟩⟩,
      fun v hv => isWord_iff.2 (versions.2 ⟨_, hversion⟩ v hv),
      fun v hv => exists_fields_iff.2 (fields.2 ⟨_, hfields⟩ v hv),
      fun v hv => (exists_symbols_iff (ordered.of_entry hv)).2 (symbols.2 ⟨_, hsymbols⟩ v hv)⟩

/-! ## A document for every grammar table -/

def toDocument (g : Grammar) : Toml.Document :=
  [("fields", .array (g.fields.map .string)), ("name", .string g.name),
    ("states", .table g.states.toEntries),
    ("symbols", .array (g.symbols.map fun s => .table s.toEntries)),
    ("version", .integer g.version.toNat)]

theorem writtenOut_toDocument (g : Grammar) : WrittenOut g.toDocument := by
  constructor
  · intro v hv
    obtain rfl : v = .table g.states.toEntries := by simpa [toDocument] using hv
    exact ⟨_, rfl⟩
  · intro items hitems v hv
    obtain rfl : items = g.symbols.map fun s => .table s.toEntries := by
      simpa [toDocument] using hitems
    obtain ⟨s, -, rfl⟩ := List.mem_map.1 hv
    refine ⟨_, rfl, fun k hk => ?_⟩
    obtain rfl : k = .string s.kind.label := by simpa [GrammarSymbol.toEntries] using hk
    exact ⟨_, rfl⟩

theorem describes_toDocument (g : Grammar) : Describes g.toDocument g where
  known := by simp [toDocument]
  name := by simp [toDocument]
  version := .inl (by simp [toDocument])
  states := ⟨_, by simp [toDocument], g.states.describes_toEntries⟩
  fields := .inl (by simp [toDocument])
  symbols := by
    have there :
        ("symbols", .array (g.symbols.map fun s => .table s.toEntries)) ∈ g.toDocument := by
      simp [toDocument]
    refine .inl ⟨_, there, _, rfl, ?_⟩
    rw [List.forall₂_map_left_iff, List.forall₂_same]
    exact fun s _ => ⟨_, rfl, s.describes_toEntries⟩

theorem ascending_toDocument (g : Grammar) : Toml.Ascending g.toDocument := by
  have keys : ["fields", "name", "states", "symbols", "version"].Pairwise (· < ·) := by decide
  exact Toml.ascending_iff.2 keys

theorem plain_toDocument (g : Grammar) :
    ∀ e ∈ g.toDocument, e.2.Plain Toml.Reader.maxDepth := by
  have fields : (Value.array (g.fields.map .string)).Plain Toml.Reader.maxDepth := by
    refine .array fun v hv => ?_
    obtain ⟨name, -, rfl⟩ := List.mem_map.1 hv
    exact .string name
  have symbols : (Value.array (g.symbols.map fun s => .table s.toEntries)).Plain
      Toml.Reader.maxDepth := by
    refine .array fun v hv => ?_
    obtain ⟨s, -, rfl⟩ := List.mem_map.1 hv
    exact s.plain_toEntries
  simp only [toDocument, List.forall_mem_cons]
  exact ⟨fields, .string _, g.states.plain_toEntries, symbols, .word _, nofun⟩

theorem ofText?_toDocument (g : Grammar) :
    Toml.Document.ofText? g.toDocument.write = some g.toDocument :=
  Toml.Document.ofText?_write g.ascending_toDocument g.plain_toDocument

/-! ## Exact reading -/

/-- What a document gives: a grammar table exactly if the document is accepted, and then the one
that it describes. -/
structure Exact {ε : Type} (document : Toml.Document) (result : Except ε Grammar) : Prop where
  accepts : (∃ g, result = .ok g) ↔ Accepted document
  carries (g : Grammar) : result = .ok g ↔ Describes document g

theorem exact_ofDocument (ordered : document.Ordered) (written : WrittenOut document) :
    Exact document (ofDocument document) := by
  have carries (g : Grammar) := ofDocument_eq_ok (g := g) ordered written
  exact ⟨(exists_congr carries).trans (accepted_iff ordered).symm, carries⟩

theorem exact_ofTextWith (parser : Toml.Parser) {text : String}
    (parsed : parser.parse text = some document) (written : WrittenOut document) :
    Exact document (ofTextWith parser.parse text) := by
  have exact := exact_ofDocument (parser.ordered parsed) written
  have same (g : Grammar) : ofTextWith parser.parse text = .ok g ↔ ofDocument document = .ok g := by
    rw [ofTextWith, mapError_eq_ok, Schema.ofTextWith_eq_ok parsed]
  exact ⟨(exists_congr same).trans exact.accepts, fun g => (same g).trans (exact.carries g)⟩

/-- Descriptions that are written out are read exactly, as documents and as the texts of documents:
what they must hold and nothing else, and the values they hold with the defaults for absent ones.
It does not matter which parser makes documents of the texts. With the standard one, every grammar
table is what some such text gives. -/
theorem readExactly :
    (∀ document : Toml.Document, document.Ordered → WrittenOut document →
      Exact document (ofDocument document)) ∧
    (∀ (parser : Toml.Parser) text document, parser.parse text = some document →
      WrittenOut document → Exact document (ofTextWith parser.parse text)) ∧
    (∀ text document, Toml.Document.ofText? text = some document → WrittenOut document →
      Exact document (ofText text)) ∧
    ∀ g, ∃ text document, Toml.Document.ofText? text = some document ∧ WrittenOut document ∧
      ofText text = .ok g := by
  refine ⟨fun _ => exact_ofDocument, fun parser _ _ => exact_ofTextWith parser,
    fun _ _ => exact_ofTextWith .standard, fun g => ?_⟩
  have parsed := g.ofText?_toDocument
  have written := g.writtenOut_toDocument
  have read := ((exact_ofTextWith .standard parsed written).carries g).2 g.describes_toDocument
  exact ⟨_, _, parsed, written, read⟩

/-- A description without a version and fields, one symbol of which has no kind. -/
def sparseText : String :=
  "name = 'calc'\n[states]\ntotal = 3\nlarge = 1\n" ++
    "[[symbols]]\nname = 'num'\nkind = 'token'\n[[symbols]]\nname = 'expr'\n"

def sparseDocument : Toml.Document :=
  [("name", .string "calc"), ("states", .table [("large", .integer 1), ("total", .integer 3)]),
    ("symbols", .array [.table [("kind", .string "token"), ("name", .string "num")],
      .table [("name", .string "expr")]])]

def sparseGrammar : Grammar where
  name := "calc"
  states := ⟨3, 1⟩
  symbols := [⟨"num", .token⟩, ⟨"expr", .rule⟩]

theorem readExactly_sparse :
    Toml.Document.ofText? sparseText = some sparseDocument ∧ sparseDocument.Ordered ∧
      WrittenOut sparseDocument ∧ ofDocument sparseDocument = .ok sparseGrammar ∧
      ofText sparseText = .ok sparseGrammar ∧
      ofTextWith (fun _ => some sparseDocument) "calc" = .ok sparseGrammar := by
  have parsed : Toml.Document.ofText? sparseText = some sparseDocument := by cbv
  have ordered := Toml.Document.ordered_of_ofText? parsed
  have written : WrittenOut sparseDocument := by
    constructor
    · simp [sparseDocument]
    · simp [sparseDocument, GrammarSymbol.WrittenOut]
  have states : StateNumbers.Describes [("large", .integer 1), ("total", .integer 3)] ⟨3, 1⟩ := by
    constructor <;> simp
  have num : GrammarSymbol.Describes [("kind", .string "token"), ("name", .string "num")]
      ⟨"num", .token⟩ := by
    constructor <;> simp [SymbolKind.label]
  have expr : GrammarSymbol.Describes [("name", .string "expr")] ⟨"expr", .rule⟩ := by
    constructor <;> simp
  have describes : Describes sparseDocument sparseGrammar := by
    constructor
    case known => simp [sparseDocument]
    case name => simp [sparseDocument, sparseGrammar]
    case version => exact .inr ⟨by simp [sparseDocument], rfl⟩
    case states => exact ⟨_, .tail _ (.head _), states⟩
    case fields => exact .inr ⟨by simp [sparseDocument], rfl⟩
    case symbols =>
      exact .inl ⟨_, .tail _ (.tail _ (.head _)), _, rfl,
        .cons ⟨_, rfl, num⟩ (.cons ⟨_, rfl, expr⟩ .nil)⟩
  -- A parser that knows one document only.
  let parser : Toml.Parser := ⟨fun _ => some sparseDocument, fun h => Option.some.inj h ▸ ordered⟩
  exact ⟨parsed, ordered, written, ((readExactly.1 _ ordered written).carries _).2 describes,
    ((readExactly.2.2.1 _ _ parsed written).carries _).2 describes,
    ((readExactly.2.1 parser _ _ rfl written).carries _).2 describes⟩

end Grammar

end GrammarArtifact
