import GrammarArtifact.Proofs.Canonical
import GrammarArtifact.Proofs.Compilation
import Mathlib.Data.Bool.Count
import Mathlib.Data.List.Forall2

/-! What artifacts tell apart. Drafts whose names hold no terminator have different artifacts when
they differ at all (`Draft.encode_injective`). Descriptions are compiled by way of their drafts, and
these forget one thing: which of the tokens come from an external scanner, though not how many
(`Grammar.plan_eq_plan_iff`). The flags of rules and tokens are the same, but terminals come first,
so the number of terminals tells where the rules begin. -/

namespace GrammarArtifact

/-! ## Drafts -/

/-- Symbols are told apart by their names and the bits of their flags. -/
theorem Symbol.zip_map (symbols : List Symbol) :
    zip (symbols.map (·.name)) (symbols.map (·.flags.bits)) = symbols := by
  rw [zip, List.zip_map', List.map_map]
  exact List.map_id symbols

namespace Draft

variable {d d' : Draft} {bytes : Bytes} {h : Header}

/-- No name of a symbol or a field holds a terminator. -/
structure Separable (d : Draft) : Prop where
  symbolNames : ∀ name ∈ d.symbolNames, StringTable.nul ∉ name.toList
  fieldNames : ∀ name ∈ d.fields, StringTable.nul ∉ name.toList

/-- There is only one draft that can be read back from an artifact. -/
theorem ReadsBack.unique (hd : d.ReadsBack h bytes) (hd' : d'.ReadsBack h bytes)
    (hs : d.Separable) (hs' : d'.Separable) : d = d' := by
  have hmap : ∀ {texts texts' : List String},
      some (texts.map Bytes.ofText) = some (texts'.map Bytes.ofText) → texts = texts' :=
    fun h => List.map_injective_iff.2 (fun _ _ => Bytes.ofText_injective) (Option.some.inj h)
  have hname : d.name = d'.name :=
    Bytes.ofText_injective (Option.some.inj (hd.name.symm.trans hd'.name))
  have hnames : d.symbolNames = d'.symbolNames := hmap <|
    (hd.splitSymbolNames hs.symbolNames).symm.trans (hd'.splitSymbolNames hs'.symbolNames)
  have hflags : d.symbols.map (·.flags.bits) = d'.symbols.map (·.flags.bits) :=
    Option.some.inj (hd.symbolMetadata.symm.trans hd'.symbolMetadata)
  have hsymbols : d.symbols = d'.symbols := by
    rw [← Symbol.zip_map d.symbols, ← Symbol.zip_map d'.symbols, hflags]
    exact congrArg (Symbol.zip · _) hnames
  have hfields : d.fields = d'.fields := hmap <|
    (hd.splitFieldNames hs.fieldNames).symm.trans (hd'.splitFieldNames hs'.fieldNames)
  have hversion := hd.version.symm.trans hd'.version
  have htokens := hd.tokens.symm.trans hd'.tokens
  have hexternals := hd.externals.symm.trans hd'.externals
  have hstates := hd.states.symm.trans hd'.states
  have hlarge := hd.largeStates.symm.trans hd'.largeStates
  cases d
  cases d'
  simp only [Draft.mk.injEq]
  exact ⟨hname, hversion, hsymbols, hfields, htokens, hexternals, hstates, hlarge⟩

theorem encode_injective (henc : d.encode = .ok bytes) (henc' : d'.encode = .ok bytes)
    (hs : d.Separable) (hs' : d'.Separable) : d = d' := by
  obtain ⟨h, hh, hbytes⟩ := encode_eq_ok.1 henc
  obtain ⟨h', hh', hbytes'⟩ := encode_eq_ok.1 henc'
  obtain rfl : h = h' := by
    have hdecode := h.decode_encode d.payload
    rw [hbytes, ← hbytes', h'.decode_encode] at hdecode
    exact (Except.ok.inj hdecode).symm
  have hread := (stored_of_header hh).readsBack
  have hread' := (stored_of_header hh').readsBack
  rw [hbytes] at hread
  rw [hbytes'] at hread'
  exact hread.unique hread' hs hs'

end Draft

/-! ## Kinds of symbols -/

namespace SymbolKind

variable {k k' : SymbolKind}

/-- The kinds are the same, or both are tokens, one of them from an external scanner. -/
def Alike (k k' : SymbolKind) : Prop :=
  k = k' ∨ (k = .token ∧ k' = .external) ∨ (k = .external ∧ k' = .token)

/-- The flags tell kinds apart up to the source of a token, once terminals are told from rules. -/
theorem alike_iff : k.Alike k' ↔ k.flags = k'.flags ∧ k.isTerminal = k'.isTerminal := by
  unfold Alike
  cases k <;> cases k' <;> decide

end SymbolKind

namespace Grammar

variable {g g' : Grammar} {symbols symbols' : List GrammarSymbol} {bytes bytes' : Bytes}

/-- Lists that agree in two columns agree in both together. -/
theorem map_prod_eq_iff {α β γ : Type} {f : α → β} {g : α → γ} {l l' : List α} :
    l.map (fun a => (f a, g a)) = l'.map (fun a => (f a, g a)) ↔
      l.map f = l'.map f ∧ l.map g = l'.map g := by
  constructor
  · intro h
    have hfst := congrArg (List.map Prod.fst) h
    have hsnd := congrArg (List.map Prod.snd) h
    simp only [List.map_map] at hfst hsnd
    exact ⟨hfst, hsnd⟩
  · rintro ⟨hf, hg⟩
    rw [← List.zip_map', hf, hg, List.zip_map']

theorem map_stored_eq_iff : symbols.map GrammarSymbol.stored = symbols'.map GrammarSymbol.stored ↔
    symbols.map (·.name) = symbols'.map (·.name) ∧
      symbols.map (·.kind.flags) = symbols'.map (·.kind.flags) := by
  have hstored : ∀ {s t : GrammarSymbol},
      s.stored = t.stored ↔ (s.name, s.kind.flags) = (t.name, t.kind.flags) := by
    simp only [GrammarSymbol.stored, Symbol.mk.injEq, Prod.mk.injEq, implies_true]
  rw [← map_prod_eq_iff]
  simp only [← List.forall₂_eq_eq_eq, List.forall₂_map_left_iff, List.forall₂_map_right_iff,
    hstored]

theorem forall₂_alike_iff :
    List.Forall₂ (fun s t => s.kind.Alike t.kind) symbols symbols' ↔
      symbols.map (·.kind.flags) = symbols'.map (·.kind.flags) ∧
        symbols.map (·.kind.isTerminal) = symbols'.map (·.kind.isTerminal) := by
  rw [← map_prod_eq_iff]
  simp only [← List.forall₂_eq_eq_eq, List.forall₂_map_left_iff, List.forall₂_map_right_iff,
    SymbolKind.alike_iff, Prod.mk.injEq]

theorem countP_isTerminal (symbols : List GrammarSymbol) :
    symbols.countP (·.kind.isTerminal) = (symbols.map (·.kind.isTerminal)).count true := by
  rw [List.count_eq_countP, List.countP_map]
  exact List.countP_congr fun s _ => by simp

/-- Where terminals come first, their number tells which symbols are terminals. -/
theorem TerminalsFirst.map_isTerminal_eq (h : TerminalsFirst symbols)
    (h' : TerminalsFirst symbols') (hlength : symbols.length = symbols'.length)
    (hcount : symbols.countP (·.kind.isTerminal) = symbols'.countP (·.kind.isTerminal)) :
    symbols.map (·.kind.isTerminal) = symbols'.map (·.kind.isTerminal) := by
  rw [countP_isTerminal, countP_isTerminal] at hcount
  have hfalse := List.count_false_add_count_true (symbols.map (·.kind.isTerminal))
  have hfalse' := List.count_false_add_count_true (symbols'.map (·.kind.isTerminal))
  rw [List.length_map] at hfalse hfalse'
  -- Both lists hold each truth value equally often and have all that are true in front.
  have hperm : (symbols.map (·.kind.isTerminal)).Perm (symbols'.map (·.kind.isTerminal)) := by
    refine List.perm_iff_count.2 fun b => ?_
    cases b with
    | true => exact hcount
    | false => omega
  have hsorted : (symbols.map (·.kind.isTerminal)).Pairwise fun (a b : Bool) => b → a :=
    List.pairwise_map.2 h
  have hsorted' : (symbols'.map (·.kind.isTerminal)).Pairwise fun (a b : Bool) => b → a :=
    List.pairwise_map.2 h'
  exact hperm.eq_of_pairwise (fun _ _ _ _ hab hba => Bool.eq_iff_iff.2 ⟨hba, hab⟩) hsorted hsorted'

/-- Two descriptions are the same but for which of their tokens are external. -/
structure UpToExternals (g g' : Grammar) : Prop where
  name : g.name = g'.name
  version : g.version = g'.version
  states : g.states = g'.states
  fields : g.fields = g'.fields
  symbolNames : g.symbols.map (·.name) = g'.symbols.map (·.name)
  externals : g.symbols.countP (·.kind = .external) = g'.symbols.countP (·.kind = .external)
  kinds : List.Forall₂ (fun s t => s.kind.Alike t.kind) g.symbols g'.symbols

/-- The drafts of two descriptions are equal when the flags, the names and the counts are. The
number of tokens makes up for what the flags do not tell. -/
theorem plan_eq_plan_iff (henc : g.plan.encode = .ok bytes) (henc' : g'.plan.encode = .ok bytes')
    (hfirst : TerminalsFirst g.symbols) (hfirst' : TerminalsFirst g'.symbols) :
    g.plan = g'.plan ↔ g.UpToExternals g' := by
  constructor
  · intro hplan
    have hsymbols := (List.cons.inj (congrArg Draft.symbols hplan)).2
    obtain ⟨hnames, hflags⟩ := map_stored_eq_iff.1 hsymbols
    have hlength : g.symbols.length = g'.symbols.length := by
      have hlength := congrArg List.length hnames
      rwa [List.length_map, List.length_map] at hlength
    have htokens := congrArg (·.tokens.toNat) hplan
    have hexternals := congrArg (·.externals.toNat) hplan
    simp only [toNat_tokens_plan henc, toNat_tokens_plan henc'] at htokens
    simp only [toNat_externals_plan henc, toNat_externals_plan henc'] at hexternals
    have hterminals := hfirst.map_isTerminal_eq hfirst' hlength (by omega)
    have htotal : g.states.total = g'.states.total := congrArg Draft.states hplan
    have hlarge : g.states.large = g'.states.large := congrArg Draft.largeStates hplan
    exact {
      name := congrArg Draft.name hplan
      version := congrArg Draft.version hplan
      states := congrArg₂ StateNumbers.mk htotal hlarge
      fields := congrArg Draft.fields hplan
      symbolNames := hnames
      externals := hexternals
      kinds := forall₂_alike_iff.2 ⟨hflags, hterminals⟩ }
  · intro h
    obtain ⟨hflags, hterminals⟩ := forall₂_alike_iff.1 h.kinds
    have hsymbols := map_stored_eq_iff.2 ⟨h.symbolNames, hflags⟩
    rw [plan, plan, h.name, h.version, h.states, h.fields, h.externals, hsymbols,
      countP_isTerminal, countP_isTerminal, hterminals]

/-- No name of a symbol or a field holds a terminator. -/
structure Separable (g : Grammar) : Prop where
  symbolNames : ∀ s ∈ g.symbols, StringTable.nul ∉ s.name.toList
  fieldNames : ∀ f ∈ g.fields, StringTable.nul ∉ f.toList

theorem Separable.plan (h : g.Separable) : g.plan.Separable := by
  refine ⟨?_, h.fieldNames⟩
  rw [symbolNames_plan]
  exact List.forall_mem_cons.2 ⟨by decide, List.forall_mem_map.2 h.symbolNames⟩

/-- Compilation forgets which of the tokens are external, and nothing else. -/
theorem compile_kernel (hcompile : g.compile = .ok bytes) (hcompile' : g'.compile = .ok bytes')
    (hs : g.Separable) (hs' : g'.Separable) : bytes = bytes' ↔ g.UpToExternals g' := by
  obtain ⟨hfirst, henc⟩ := compile_eq_ok.1 hcompile
  obtain ⟨hfirst', henc'⟩ := compile_eq_ok.1 hcompile'
  rw [← plan_eq_plan_iff henc henc' hfirst hfirst']
  constructor
  · rintro rfl
    exact Draft.encode_injective henc henc' hs.plan hs'.plan
  · intro hplan
    rw [hplan] at henc
    exact Except.ok.inj (henc.symm.trans henc')

/-- A description with a token of its own and one of an external scanner. -/
def scanned : Grammar where
  name := "x"
  states := ⟨2, 1⟩
  fields := ["left"]
  symbols := [⟨"id", .token⟩, ⟨"indent", .external⟩, ⟨"file", .rule⟩]

/-- The same description with the two tokens exchanged. -/
def exchanged : Grammar :=
  { scanned with symbols := [⟨"id", .external⟩, ⟨"indent", .token⟩, ⟨"file", .rule⟩] }

theorem compile_kernel_scanned : scanned ≠ exchanged ∧ scanned.Separable ∧ exchanged.Separable ∧
    ∃ bytes bytes', scanned.compile = .ok bytes ∧ exchanged.compile = .ok bytes' ∧
      bytes = bytes' := by
  have hs : scanned.Separable := ⟨by decide, by decide⟩
  have hs' : exchanged.Separable := ⟨by decide, by decide⟩
  have hkinds : scanned.UpToExternals exchanged := by
    refine ⟨rfl, rfl, rfl, rfl, rfl, rfl, ?_⟩
    exact .cons (.inr (.inl ⟨rfl, rfl⟩)) (.cons (.inr (.inr ⟨rfl, rfl⟩)) (.cons (.inl rfl) .nil))
  exact ⟨by decide, hs, hs', _, _, rfl, rfl, (compile_kernel rfl rfl hs hs').2 hkinds⟩

end Grammar

end GrammarArtifact
