/-! A check that passes silently or stops with its error. Sequences of such checks are the shape of
every validation in this library: the first one that fails decides the error. -/

namespace GrammarArtifact

def ensure {ε : Type} (p : Prop) [Decidable p] (error : ε) : Except ε Unit :=
  if p then .ok () else .error error

section

variable {ε : Type} {p : Prop} [Decidable p] {e e' : ε}

@[simp] theorem ensure_eq_ok {u : Unit} : ensure p e = .ok u ↔ p := by
  unfold ensure; split <;> simp [*]

@[simp] theorem ensure_eq_error : ensure p e = .error e' ↔ ¬p ∧ e = e' := by
  unfold ensure; split <;> simp [*]

theorem ensure_of_pos (h : p) : ensure p e = .ok () := if_pos h

theorem ensure_of_neg (h : ¬p) : ensure p e = .error e := if_neg h

theorem ensure_congr {q : Prop} [Decidable q] (h : p ↔ q) : ensure p e = ensure q e := by
  by_cases hp : p
  · rw [ensure_of_pos hp, ensure_of_pos (h.1 hp)]
  · rw [ensure_of_neg hp, ensure_of_neg fun hq => hp (h.2 hq)]

end

/-! ## Sequences of checks -/

section

variable {ε δ α β : Type} {x : Except ε α} {f : α → Except ε β} {a : α} {b : β} {e : ε}

theorem ok_bind : (Except.ok a : Except ε α) >>= f = f a := rfl

theorem pure_eq_ok {a' : α} : (pure a : Except ε α) = .ok a' ↔ a = a' :=
  ⟨Except.ok.inj, congrArg _⟩

theorem bind_eq_ok : x >>= f = .ok b ↔ ∃ a, x = .ok a ∧ f a = .ok b := by
  cases x with
  | error e => exact ⟨fun h => (nomatch h), fun ⟨_, h, _⟩ => (nomatch h)⟩
  | ok a => exact ⟨fun h => ⟨a, rfl, h⟩, fun ⟨_, h, hf⟩ => Except.ok.inj h ▸ hf⟩

theorem bind_eq_error :
    x >>= f = .error e ↔ x = .error e ∨ ∃ a, x = .ok a ∧ f a = .error e := by
  cases x with
  | error e' =>
    refine ⟨fun h => .inl (congrArg _ (Except.error.inj h)), ?_⟩
    rintro (h | ⟨_, h, _⟩)
    · exact congrArg _ (Except.error.inj h)
    · nomatch h
  | ok a =>
    refine ⟨fun h => .inr ⟨a, rfl, h⟩, ?_⟩
    rintro (h | ⟨_, h, hf⟩)
    · nomatch h
    · exact Except.ok.inj h ▸ hf

theorem mapError_ok {g : ε → δ} : (Except.ok a : Except ε α).mapError g = .ok a := rfl

theorem mapError_eq_ok {g : ε → δ} : x.mapError g = .ok a ↔ x = .ok a := by
  cases x with
  | error e => exact ⟨fun h => (nomatch h), fun h => (nomatch h)⟩
  | ok a' => exact ⟨fun h => congrArg _ (Except.ok.inj h), fun h => congrArg _ (Except.ok.inj h)⟩

theorem mapError_bind {g : ε → δ} :
    (x >>= f).mapError g = x.mapError g >>= fun a => (f a).mapError g := by
  cases x with
  | error e => rfl
  | ok a => rfl

theorem map_bind_except {γ : Type} {g : β → γ} :
    (x >>= f).map g = x >>= fun a => (f a).map g := by
  cases x with
  | error e => rfl
  | ok a => rfl

/-- What follows a check matters only where the check passes. -/
theorem bind_congr_ok {f' : α → Except ε β} (h : ∀ a, x = .ok a → f a = f' a) :
    x >>= f = x >>= f' := by
  cases x with
  | error e => rfl
  | ok a => exact h a rfl

theorem option_forM_eq_ok {y : Option α} {g : α → Except ε Unit} {u : Unit} :
    y.forM g = .ok u ↔ ∀ a ∈ y, g a = .ok () := by
  cases y with
  | none => exact ⟨fun _ _ h => (nomatch h), fun _ => rfl⟩
  | some a => exact ⟨fun h b hb => Option.some.inj hb ▸ h, fun h => h a rfl⟩

/-- A fold that can fail stops at the first item that fails. -/
theorem foldlM_eq_error {f : β → α → Except ε β} {items : List α} :
    items.foldlM f b = .error e ↔ ∃ before a after b', items = before ++ a :: after ∧
      before.foldlM f b = .ok b' ∧ f b' a = .error e := by
  induction items generalizing b with
  | nil =>
    constructor
    · intro h
      nomatch h
    · intro ⟨before, a, after, b', h, _⟩
      cases before <;> nomatch h
  | cons x rest ih =>
    simp only [List.foldlM_cons, bind_eq_error, ih]
    constructor
    · intro h
      rcases h with h | ⟨c, hx, before, a, after, b', rfl, hbefore, ha⟩
      · exact ⟨[], x, rest, b, rfl, rfl, h⟩
      · refine ⟨x :: before, a, after, b', rfl, ?_, ha⟩
        rw [List.foldlM_cons, hx]
        exact hbefore
    · intro ⟨before, a, after, b', hsplit, hbefore, ha⟩
      cases before with
      | nil =>
        cases hsplit
        cases hbefore
        exact .inl ha
      | cons y before =>
        cases hsplit
        rw [List.foldlM_cons, bind_eq_ok] at hbefore
        obtain ⟨c, hx, hbefore⟩ := hbefore
        exact .inr ⟨c, hx, before, a, after, b', rfl, hbefore, ha⟩

end

end GrammarArtifact
