import GrammarArtifact.Loader.Config
import GrammarArtifact.Proofs.Records
import GrammarArtifact.Proofs.VersionChange
import GrammarArtifact.Proofs.Writing
import Mathlib

/-! Which documents configure a loader, and for which versions. The bounds of a range stand in a
table or in an array (`VersionRange.SetsBounds`). Once they are found to be words, what is left to
check is their order (`VersionRange.read_of_setsBounds`). So every range that a document gives has
been through `VersionRange.ofBounds`, and a loader of it accepts the artifacts of each of its
versions (`Loader.loads_iff`), of which there is one at least. For texts, the parser that makes
documents of them can be any (`Loader.exact_ofTextWith`). -/

namespace GrammarArtifact

open Schema (Record Field)
open Toml (Value)

variable {min max : UInt32} {r : VersionRange} {v : Value}

/-! ## Ranges in documents -/

namespace VersionRange

theorem eq_supported_iff : r = supported ↔ r.min = 13 ∧ r.max = 14 := by
  rw [VersionRange.mk.injEq]
  rfl

/-- The two bounds of a range in a document: under their keys in a table that has no others, or as
the first two items of an array. -/
inductive SetsBounds (min max : Value) : Value → Prop
  | table {entries : List (String × Value)} (known : ∀ e ∈ entries, e.1 ∈ ["min", "max"])
    (hmin : ("min", min) ∈ entries) (hmax : ("max", max) ∈ entries) :
    SetsBounds min max (.table entries)
  | array (rest : List Value) : SetsBounds min max (.array (min :: max :: rest))

/-- The value sets both bounds, to words that are not inverted. -/
def IsRange (v : Value) : Prop :=
  ∃ min max : Int, SetsBounds (.integer min) (.integer max) v ∧
    0 ≤ min ∧ min ≤ max ∧ max ≤ 4294967295

theorem isRange_iff :
    IsRange v ↔ ∃ r : VersionRange, SetsBounds (.integer r.min.toNat) (.integer r.max.toNat) v := by
  constructor
  · intro ⟨min, max, hbounds, low, ordered, high⟩
    obtain ⟨lower, hlower⟩ := Schema.exists_word_eq_ok.2 ⟨min, rfl, low, by omega⟩
    obtain ⟨upper, hupper⟩ := Schema.exists_word_eq_ok.2 ⟨max, rfl, by omega, high⟩
    obtain rfl := Value.integer.inj (Schema.word_eq_ok.1 hlower)
    obtain rfl := Value.integer.inj (Schema.word_eq_ok.1 hupper)
    exact ⟨⟨lower, upper, UInt32.le_iff_toNat_le.2 (by omega)⟩, hbounds⟩
  · intro ⟨r, hbounds⟩
    have ordered := UInt32.le_iff_toNat_le.1 r.min_le_max
    have high := r.max.toNat_lt
    exact ⟨r.min.toNat, r.max.toNat, hbounds, by omega, by omega, by omega⟩

/-- Where both bounds are words, whether they are inverted is all that is left to check. -/
theorem read_of_setsBounds (ordered : v.Ordered)
    (h : SetsBounds (.integer min.toNat) (.integer max.toNat) v) :
    read v = (ofBounds min max).mapError .invertedRange := by
  have lower : Schema.word (.integer min.toNat) = .ok min := Schema.word_eq_ok.2 rfl
  have upper : Schema.word (.integer max.toNat) = .ok max := Schema.word_eq_ok.2 rfl
  cases h with
  | @table entries known hmin hmax =>
    have distinct := ordered.nodup
    have source : record.ofEntries entries = .ok (.keyed entries) := by
      refine (Record.ofEntries_eq_ok distinct (r := record) (by decide)).2 ⟨rfl, known, ?_⟩
      exact List.forall_mem_cons.2 ⟨Record.check_of_required distinct ⟨_, hmin, lower⟩,
        List.forall_mem_cons.2 ⟨Record.check_of_required distinct ⟨_, hmax, upper⟩, nofun⟩⟩
    rw [read, Record.ofValue, source, ok_bind,
      (Record.required_eq_ok distinct).2 ⟨_, hmin, lower⟩, ok_bind,
      (Record.required_eq_ok distinct).2 ⟨_, hmax, upper⟩]
    rfl
  | array rest =>
    have items : read (.array (.integer min.toNat :: .integer max.toNat :: rest)) = (do
        let min ← Schema.word (.integer min.toNat)
        let max ← Schema.word (.integer max.toNat)
        (ofBounds min max).mapError .invertedRange) := rfl
    rw [items, lower, upper]
    rfl

/-- Nothing is read from a value that does not set both bounds. -/
theorem exists_setsBounds_of_read (ordered : v.Ordered) (h : read v = .ok r) :
    ∃ min max : UInt32, SetsBounds (.integer min.toNat) (.integer max.toNat) v := by
  cases v with
  | table entries =>
    have distinct := ordered.nodup
    obtain ⟨known, h, -⟩ :=
      (Record.bind_ofEntries_eq_ok distinct (r := record) (by decide)).1 h
    obtain ⟨min, hmin, h⟩ := bind_eq_ok.1 h
    obtain ⟨max, hmax, -⟩ := bind_eq_ok.1 h
    rw [Record.required_eq_ok distinct, Schema.mem_word_iff] at hmin hmax
    exact ⟨min, max, .table known hmin hmax⟩
  | array items =>
    obtain ⟨source, listed, h⟩ := bind_eq_ok.1 h
    obtain rfl := Except.ok.inj listed
    obtain ⟨min, hmin, h⟩ := bind_eq_ok.1 h
    obtain ⟨max, hmax, -⟩ := bind_eq_ok.1 h
    cases items with
    | nil => nomatch hmin
    | cons first rest =>
      cases rest with
      | nil => nomatch hmax
      | cons second rest =>
        have first_eq : first = .integer min.toNat := Schema.word_eq_ok.1 hmin
        have second_eq : second = .integer max.toNat := Schema.word_eq_ok.1 hmax
        exact ⟨min, max, first_eq ▸ second_eq ▸ .array rest⟩
  -- A moment counts as a table, but one whose only key is not the key of a bound.
  | _ => nomatch h

theorem read_eq_ok (ordered : v.Ordered) :
    read v = .ok r ↔ SetsBounds (.integer r.min.toNat) (.integer r.max.toNat) v := by
  constructor
  · intro h
    obtain ⟨min, max, hbounds⟩ := exists_setsBounds_of_read ordered h
    rw [read_of_setsBounds ordered hbounds, mapError_eq_ok, ofBounds_eq_ok] at h
    obtain ⟨rfl, rfl⟩ := h
    exact hbounds
  · intro hbounds
    rw [read_of_setsBounds ordered hbounds, mapError_eq_ok, ofBounds_eq_ok]
    exact ⟨rfl, rfl⟩

end VersionRange

/-! ## An artifact of every version -/

namespace Draft

theorem exists_header_straight (version : UInt32) :
    ∃ h, (straight.withVersion version).header = .ok h := by
  have numbered : straight.Numbered := ⟨by decide, by decide, by decide⟩
  have fits : ∀ s, ¬straight.TooLarge s := by
    intro s
    cases s <;> decide
  refine exists_header_iff.2 ⟨?_, fun s _ => fits s⟩
  exact ⟨numbered.states, numbered.symbols, numbered.fields⟩

end Draft

/-! ## Configurations -/

namespace Loader

variable {document : Toml.Document} {loader : Loader} {text : String}

structure Accepted (document : Toml.Document) : Prop where
  known : ∀ e ∈ document, e.1 = "versions"
  versions : ∀ v, ("versions", v) ∈ document → VersionRange.IsRange v

structure Describes (document : Toml.Document) (r : VersionRange) : Prop where
  known : ∀ e ∈ document, e.1 = "versions"
  versions : (∃ v, ("versions", v) ∈ document ∧
      VersionRange.SetsBounds (.integer r.min.toNat) (.integer r.max.toNat) v) ∨
    "versions" ∉ document.map Prod.fst ∧ r.min = 13 ∧ r.max = 14

theorem accepted_iff (ordered : document.Ordered) :
    Accepted document ↔ ∃ r, Describes document r := by
  have versions := Schema.forall_entry_iff ordered.nodup "versions"
    (fun v (r : VersionRange) =>
      VersionRange.SetsBounds (.integer r.min.toNat) (.integer r.max.toNat) v) .supported
  simp only [← VersionRange.isRange_iff, VersionRange.eq_supported_iff] at versions
  constructor
  · intro ⟨known, hversions⟩
    obtain ⟨r, hr⟩ := versions.1 hversions
    exact ⟨r, known, hr⟩
  · intro ⟨r, known, hr⟩
    exact ⟨known, versions.2 ⟨r, hr⟩⟩

theorem ofDocument_eq_ok (ordered : document.Ordered) :
    ofDocument document = .ok loader ↔ Describes document loader.versions := by
  have distinct := ordered.nodup
  have read {r : VersionRange} : (∃ v, ("versions", v) ∈ document ∧ VersionRange.read v = .ok r) ↔
      ∃ v, ("versions", v) ∈ document ∧
        VersionRange.SetsBounds (.integer r.min.toNat) (.integer r.max.toNat) v :=
    exists_congr fun _ => and_congr_right fun hv => VersionRange.read_eq_ok (ordered.of_entry hv)
  refine (Record.bind_ofEntries_eq_ok distinct (r := record) (by decide)).trans ?_
  simp only [bind_eq_ok, pure_eq_ok, Record.optional_eq_ok distinct]
  constructor
  · intro ⟨known, ⟨r, hr, same⟩, _⟩
    obtain rfl := same
    exact ⟨fun e he => List.mem_singleton.1 (known e he),
      hr.imp read.1 (And.imp_right VersionRange.eq_supported_iff.1)⟩
  · intro ⟨known, hr⟩
    have hversions := hr.imp read.2 (And.imp_right VersionRange.eq_supported_iff.2)
    refine ⟨fun e he => List.mem_singleton.2 (known e he), ⟨_, hversions, rfl⟩, ?_⟩
    exact List.forall_mem_cons.2 ⟨Record.check_of_optional distinct hversions, nofun⟩

/-! ## Inverted bounds -/

/-- A range with inverted bounds is refused for these bounds. -/
theorem ofDocument_of_inverted (ordered : v.Ordered)
    (hbounds : VersionRange.SetsBounds (.integer min.toNat) (.integer max.toNat) v)
    (inverted : max < min) :
    ofDocument [("versions", v)] = .error (.invertedRange ⟨min, max⟩) := by
  have refused : VersionRange.read v = .error (.invertedRange ⟨min, max⟩) := by
    rw [VersionRange.read_of_setsBounds ordered hbounds,
      VersionRange.ofBounds_eq_error.2 ⟨inverted, rfl⟩]
    rfl
  have checks : record.checkEntries [] [("versions", v)] =
      ((VersionRange.read v).map fun _ => ()) >>= fun _ => .ok () := rfl
  rw [ofDocument, Record.ofEntries, checks, refused]
  rfl

example : ofDocument [("versions", .array [.integer 14, .integer 13])] =
    .error (.invertedRange ⟨14, 13⟩) := rfl

/-! ## A document for every range -/

def toDocument (loader : Loader) : Toml.Document :=
  [("versions", .table [("max", .integer loader.versions.max.toNat),
    ("min", .integer loader.versions.min.toNat)])]

theorem describes_toDocument (loader : Loader) : Describes loader.toDocument loader.versions where
  known := by simp [toDocument]
  versions := by
    refine .inl ⟨_, .head _, .table ?_ ?_ ?_⟩ <;> simp

theorem ofText?_toDocument (loader : Loader) :
    Toml.Document.ofText? loader.toDocument.write = some loader.toDocument := by
  have keys : ["versions"].Pairwise (· < ·) := by decide
  have bounds : ["max", "min"].Pairwise (· < ·) := by decide
  refine Toml.Document.ofText?_write (Toml.ascending_iff.2 keys) ?_
  refine List.forall_mem_cons.2 ⟨?_, nofun⟩
  refine .table (Toml.ascending_iff.2 bounds) ?_
  exact List.forall_mem_cons.2 ⟨.word _, List.forall_mem_cons.2 ⟨.word _, nofun⟩⟩

/-! ## Versions that are accepted -/

/-- Some artifact of the version is accepted. -/
def Loads (loader : Loader) (version : UInt32) : Prop :=
  ∃ artifact l, loader.load (some artifact) = .ok l ∧ l.version = version

/-- The versions of a range are the ones that its loader accepts. -/
theorem loads_iff {version : UInt32} : loader.Loads version ↔ version ∈ loader.versions := by
  constructor
  · intro ⟨artifact, l, hl, same⟩
    exact same ▸ (load_eq_ok.1 hl).2.1
  · intro hmem
    -- Versions decide the layout of an artifact only, so one draft serves for all of them.
    obtain ⟨h, hh⟩ := Draft.exists_header_straight version
    have henc := Draft.encode_eq_ok.2 ⟨h, hh, rfl⟩
    let artifact := Region.whole 0 (h.encode ++ (Draft.straight.withVersion version).payload)
    obtain ⟨l, hl⟩ : ∃ l, loader.load (some artifact) = .ok l :=
      (Draft.exists_load_eq_ok henc hmem).2 (Draft.consistent_straight version)
    have header : l.header = h := header_of_load hl rfl
    refine ⟨artifact, l, hl, ?_⟩
    rw [Language.version, header, (Draft.stored_of_header hh).version]
    rfl

theorem exists_loads (loader : Loader) : ∃ version, loader.Loads version :=
  ⟨loader.versions.min, loads_iff.2 ⟨UInt32.le_refl _, loader.versions.min_le_max⟩⟩

/-! ## Exact reading -/

/-- What a document gives: a loader exactly if the document is accepted, and then one for the range
that it describes. -/
structure Exact {ε : Type} (document : Toml.Document) (result : Except ε Loader) : Prop where
  accepts : (∃ loader, result = .ok loader) ↔ Accepted document
  carries (loader : Loader) : result = .ok loader ↔ Describes document loader.versions
  /-- A loader from a document does not reject every artifact. -/
  loads (loader : Loader) : result = .ok loader → ∃ version, loader.Loads version

theorem exact_ofDocument (ordered : document.Ordered) : Exact document (ofDocument document) where
  accepts := by
    rw [accepted_iff ordered]
    constructor
    · intro ⟨loader, h⟩
      exact ⟨loader.versions, (ofDocument_eq_ok ordered).1 h⟩
    · intro ⟨r, h⟩
      exact ⟨⟨r⟩, (ofDocument_eq_ok ordered).2 h⟩
  carries _ := ofDocument_eq_ok ordered
  loads loader _ := loader.exists_loads

theorem exact_ofTextWith (parser : Toml.Parser) (parsed : parser.parse text = some document) :
    Exact document (ofTextWith parser.parse text) := by
  have exact := exact_ofDocument (parser.ordered parsed)
  have same (loader : Loader) :
      ofTextWith parser.parse text = .ok loader ↔ ofDocument document = .ok loader :=
    Schema.ofTextWith_eq_ok parsed
  exact ⟨(exists_congr same).trans exact.accepts,
    fun loader => (same loader).trans (exact.carries loader), fun loader _ => loader.exists_loads⟩

theorem ofText_toDocument (loader : Loader) : ofText loader.toDocument.write = .ok loader := by
  have exact := exact_ofTextWith .standard loader.ofText?_toDocument
  exact (exact.carries loader).2 loader.describes_toDocument

/-- The bounds of the ranges that there are. A range is made from bounds, of one version, by default
or out of a text, whatever makes documents of texts. -/
inductive Obtainable : (min max : UInt32) → Prop
  | ofBounds {min max : UInt32} {r : VersionRange} (h : VersionRange.ofBounds min max = .ok r) :
    Obtainable r.min r.max
  | exact (v : UInt32) : Obtainable (VersionRange.exact v).min (VersionRange.exact v).max
  | supported : Obtainable VersionRange.supported.min VersionRange.supported.max
  | ofText {parse : String → Option Toml.Document} {text : String} {loader : Loader}
    (h : ofTextWith parse text = .ok loader) :
    Obtainable loader.versions.min loader.versions.max

theorem obtainable_iff : Obtainable min max ↔ min ≤ max := by
  constructor
  · intro h
    cases h with
    | @ofBounds _ _ r h => exact r.min_le_max
    | exact v => exact (VersionRange.exact v).min_le_max
    | supported => exact VersionRange.supported.min_le_max
    | @ofText _ _ loader h => exact loader.versions.min_le_max
  · intro ordered
    exact .ofText (ofText_toDocument ⟨⟨min, max, ordered⟩⟩)

/-- Configurations are read exactly, as documents and as the texts of documents, whichever parser
makes documents of the texts; with the standard one, every range can be configured. What is no
document is no configuration, and inverted bounds are refused as such. No range is inverted,
wherever it comes from, and a loader accepts the versions of its range. -/
theorem configuredExactly :
    (∀ document : Toml.Document, document.Ordered → Exact document (ofDocument document)) ∧
    (∀ (parser : Toml.Parser) text document, parser.parse text = some document →
      Exact document (ofTextWith parser.parse text)) ∧
    (∀ (parser : Toml.Parser) text, parser.parse text = none →
      ofTextWith parser.parse text = .error .invalidDocument) ∧
    (∀ text document, Toml.Document.ofText? text = some document → Exact document (ofText text)) ∧
    (∀ text, Toml.Document.ofText? text = none → ofText text = .error .invalidDocument) ∧
    (∀ (v : Value) (min max : UInt32), v.Ordered →
      VersionRange.SetsBounds (.integer min.toNat) (.integer max.toNat) v → max < min →
        ofDocument [("versions", v)] = .error (.invertedRange ⟨min, max⟩)) ∧
    (∀ r, ∃ text, ofText text = .ok ⟨r⟩) ∧
    (∀ min max, Obtainable min max ↔ min ≤ max) ∧
    ∀ (loader : Loader) version, loader.Loads version ↔ version ∈ loader.versions := by
  exact ⟨fun _ => exact_ofDocument, fun parser _ _ => exact_ofTextWith parser,
    fun _ _ => Schema.ofTextWith_of_none, fun _ _ => exact_ofTextWith .standard,
    fun _ => Schema.ofTextWith_of_none, fun _ _ _ => ofDocument_of_inverted,
    fun r => ⟨_, ofText_toDocument ⟨r⟩⟩, fun _ _ => obtainable_iff, fun _ _ => loads_iff⟩

/-- A range in an array, with an item that is not looked at. -/
def positionalText : String := "versions = [13, 15, 'later']\n"

def positionalDocument : Toml.Document :=
  [("versions", .array [.integer 13, .integer 15, .string "later"])]

def invertedText : String := "[versions]\nmin = 14\nmax = 13\n"

def invertedBounds : Value := .table [("max", .integer 13), ("min", .integer 14)]

/-- A range by position, one with its bounds the wrong way round, and a text that is no document. -/
theorem configuredExactly_positional :
    Toml.Document.ofText? positionalText = some positionalDocument ∧
    positionalDocument.Ordered ∧ ofText positionalText = .ok ⟨⟨13, 15, by decide⟩⟩ ∧
    ofDocument positionalDocument = .ok ⟨⟨13, 15, by decide⟩⟩ ∧
    ofTextWith (fun text => if text = "" then none else some positionalDocument) "13 to 15" =
      .ok ⟨⟨13, 15, by decide⟩⟩ ∧
    ofTextWith (fun text => if text = "" then none else some positionalDocument) "" =
      .error .invalidDocument ∧
    Toml.Document.ofText? invertedText = some [("versions", invertedBounds)] ∧
    (¬∃ loader, ofText invertedText = .ok loader) ∧ invertedBounds.Ordered ∧
    VersionRange.SetsBounds (.integer 14) (.integer 13) invertedBounds ∧
    ofDocument [("versions", invertedBounds)] = .error (.invertedRange ⟨14, 13⟩) ∧
    Toml.Document.ofText? "versions" = none ∧ ofText "versions" = .error .invalidDocument := by
  have positional : Toml.Document.ofText? positionalText = some positionalDocument := by cbv
  have ordered := Toml.Document.ordered_of_ofText? positional
  have describes : Describes positionalDocument ⟨13, 15, by decide⟩ :=
    ⟨by simp [positionalDocument], .inl ⟨_, .head _, .array _⟩⟩
  have inverted : Toml.Document.ofText? invertedText = some [("versions", invertedBounds)] := by cbv
  have bounds : VersionRange.SetsBounds (.integer 14) (.integer 13) invertedBounds := by
    refine .table ?_ ?_ ?_ <;> simp
  have boundsOrdered : invertedBounds.Ordered :=
    (Toml.Document.ordered_of_ofText? inverted).of_entry (.head _)
  have refused : ¬Accepted [("versions", invertedBounds)] := by
    intro accepted
    obtain ⟨min, max, hbounds, low, hle, high⟩ := accepted.versions _ (.head _)
    cases hbounds with
    | table known hmin hmax =>
      simp at hmin hmax
      omega
  have broken : Toml.Document.ofText? "versions" = none := by cbv
  -- A parser that knows one document only.
  let parser : Toml.Parser :=
    { parse := fun text => if text = "" then none else some positionalDocument
      ordered := fun h => Option.some.inj (Option.ite_none_left_eq_some.1 h).2 ▸ ordered }
  exact ⟨positional, ordered,
    ((configuredExactly.2.2.2.1 _ _ positional).carries ⟨_⟩).2 describes,
    ((configuredExactly.1 _ ordered).carries ⟨_⟩).2 describes,
    ((configuredExactly.2.1 parser "13 to 15" _ rfl).carries ⟨_⟩).2 describes,
    configuredExactly.2.2.1 parser "" rfl, inverted,
    fun h => refused ((configuredExactly.2.2.2.1 _ _ inverted).accepts.1 h), boundsOrdered, bounds,
    configuredExactly.2.2.2.2.2.1 _ 14 13 boundsOrdered bounds (by decide), broken,
    configuredExactly.2.2.2.2.1 _ broken⟩

end Loader

end GrammarArtifact
