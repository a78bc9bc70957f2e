import GrammarArtifact.Proofs.Loading
import GrammarArtifact.Proofs.RoundTrip
import GrammarArtifact.Proofs.Slices

/-! How far into an artifact a load depends on it. Sections are laid out in order, so the last one
of the directory ends no earlier than any other (`Integrity.Laid.stop_le_getLast`). What follows its
end may be cut off or replaced; an artifact that is cut before it is not accepted. -/

namespace GrammarArtifact

namespace Integrity

variable {limit limit' : Nat} {sections : List (Section × Extent)}

/-- No section ends behind the last one, whether or not sections are empty. -/
theorem Laid.stop_le_getLast (hlaid : Laid limit sections) (hne : sections ≠ []) :
    ∀ p ∈ sections, p.2.stop ≤ (sections.getLast hne).2.stop := by
  obtain ⟨-, hordered⟩ := hlaid
  rw [← List.dropLast_concat_getLast hne, List.pairwise_append] at hordered
  obtain ⟨-, -, hlast⟩ := hordered
  intro p hp
  rw [← List.dropLast_concat_getLast hne, List.mem_append, List.mem_singleton] at hp
  rcases hp with hp | rfl
  -- An earlier section ends before the last one starts, which is no later than its end.
  · have hle := hlast p hp _ (List.mem_singleton_self _)
    exact Nat.le_trans hle (Extent.offset_le_stop _)
  · exact Nat.le_refl _

/-- Only the end of the last section matters for the limit. -/
theorem Laid.of_getLast_le (hlaid : Laid limit sections) (hne : sections ≠ [])
    (hle : (sections.getLast hne).2.stop ≤ limit') : Laid limit' sections :=
  ⟨fun p hp => Nat.le_trans (hlaid.stop_le_getLast hne p hp) hle, hlaid.ordered⟩

end Integrity

namespace Header

variable {h : Header} {payload payload' : Bytes}

theorem sections_ne_nil (h : Header) : h.sections ≠ [] := by
  obtain ⟨e, rest, hsections, -⟩ := h.sections_eq_cons
  rw [hsections]
  exact List.cons_ne_nil _ _

/-- Where the last section of the directory ends in the payload. -/
def lastStop (h : Header) : Nat := (h.sections.getLast h.sections_ne_nil).2.stop

/-- Where the last section of the directory ends in the artifact. -/
def reach (h : Header) : Nat := h.payloadOffset + h.lastStop

namespace Sound

theorem lastStop_le (hs : h.Sound payload) : h.lastStop ≤ payload.length :=
  hs.laid.inside _ (List.getLast_mem _)

theorem slice?_eq (hs : h.Sound payload) (hle : h.lastStop ≤ payload'.length)
    (hagree : Bytes.Agree payload payload' 0 h.lastStop) {p : Section × Extent}
    (hp : p ∈ h.sections) : p.2.slice? payload' = p.2.slice? payload := by
  have hstop := hs.laid.stop_le_getLast h.sections_ne_nil p hp
  have hreach : p.2.stop ≤ payload'.length ↔ p.2.stop ≤ payload.length :=
    iff_of_true (Nat.le_trans hstop hle) (hs.laid.inside p hp)
  exact Bytes.slice?_congr hreach (hagree.symm.mono (Nat.zero_le _) hstop)

/-- A payload that goes on differently behind the last section is as sound. -/
theorem of_agree (hs : h.Sound payload) (hle : h.lastStop ≤ payload'.length)
    (hagree : Bytes.Agree payload payload' 0 h.lastStop) : h.Sound payload' := by
  refine ⟨hs.laid.of_getLast_le h.sections_ne_nil hle, hs.bounded, fun p hp => ?_⟩
  obtain ⟨data, hslice, hfits⟩ := hs.fits p hp
  exact ⟨data, (hs.slice?_eq hle hagree hp).trans hslice, hfits⟩

end Sound

/-! ## Artifacts with the same beginning -/

variable {bytes bytes' : Bytes} {n : Nat}

theorem decode_of_take_eq (hh : decode bytes = .ok h) (hle : h.payloadOffset ≤ n)
    (htake : bytes'.take n = bytes.take n) : decode bytes' = .ok h := by
  have hlength : h.encode.length ≤ n := by rwa [length_encode]
  have hpre := List.prefix_take_iff.2 ⟨decode_eq_ok_iff.1 hh, hlength⟩
  rw [← htake] at hpre
  exact decode_eq_ok_iff.2 (List.prefix_take_iff.1 hpre).1

theorem lastStop_le_of_take_eq (hle : h.reach ≤ bytes.length)
    (htake : bytes'.take h.reach = bytes.take h.reach) :
    h.lastStop ≤ (h.payload bytes').length := by
  have hlength := congrArg List.length htake
  rw [List.length_take, List.length_take] at hlength
  rw [length_payload]
  unfold reach at hle hlength
  omega

theorem agree_payload (htake : bytes'.take h.reach = bytes.take h.reach) :
    Bytes.Agree (h.payload bytes) (h.payload bytes') 0 h.lastStop := by
  rw [payload_eq_drop, payload_eq_drop]
  exact ((Bytes.agree_of_take_eq htake).symm.mono (Nat.zero_le _) (Nat.le_refl _)).drop

end Header

namespace Loader

variable {loader : Loader} {artifact other : Region} {l : Language}

theorem reach_le_length (hl : loader.load (some artifact) = .ok l) :
    l.header.reach ≤ artifact.bytes.length := by
  have hle := (sound_of_load hl).lastStop_le
  have hoffset := Header.payloadOffset_le (load_eq_ok.1 hl).1
  rw [Header.length_payload] at hle
  unfold Header.reach
  omega

/-- What lies behind the last section can be cut off or replaced. -/
theorem load_of_take_eq (hl : loader.load (some artifact) = .ok l)
    (htake : other.bytes.take l.header.reach = artifact.bytes.take l.header.reach) :
    ∃ l', loader.load (some other) = .ok l' ∧ l'.name = l.name ∧ l'.header = l.header ∧
      ∀ s, l'.section? s = l.section? s := by
  obtain ⟨hdecode, hmem, hcheck, -⟩ := load_eq_ok.1 hl
  obtain ⟨hsound, e, hextent, hname⟩ := Header.check_eq_ok.1 hcheck
  have hother := Header.decode_of_take_eq hdecode (Nat.le_add_right _ _) htake
  have hle := Header.lastStop_le_of_take_eq (reach_le_length hl) htake
  have hagree := Header.agree_payload htake
  have hslice : ∀ {s e}, l.header.extent? s = some e →
      e.slice? (l.header.payload other.bytes) = e.slice? (l.header.payload artifact.bytes) :=
    fun he => hsound.slice?_eq hle hagree (Header.mem_sections_iff.2 he)
  have hname' := (hslice hextent).trans hname
  have hcheck' := Header.check_eq_ok.2 ⟨hsound.of_agree hle hagree, e, hextent, hname'⟩
  have hl' := (load_eq_ok (l := ⟨other, l.header, l.name⟩)).2 ⟨hother, hmem, hcheck', rfl⟩
  refine ⟨_, hl', rfl, rfl, fun s => ?_⟩
  rw [section?_of_load hl', section?_of_load hl]
  exact Option.bind_congr fun e he => hslice he

/-- An artifact that is cut before the end of its last section is not accepted. -/
theorem load_of_prefix_lt (hl : loader.load (some artifact) = .ok l)
    (hpre : other.bytes <+: artifact.bytes) (hlt : other.bytes.length < l.header.reach) :
    ∃ e, loader.load (some other) = .error e := by
  cases hother : loader.load (some other) with
  | error e => exact ⟨e, rfl⟩
  -- If it were accepted, it would have the same header and would have to reach as far.
  | ok l' =>
    have hencode := (Header.decode_eq_ok_iff.1 (load_eq_ok.1 hother).1).trans hpre
    have hheader := (Header.decode_eq_ok_iff.2 hencode).symm.trans (load_eq_ok.1 hl).1
    have hreach := reach_le_length hother
    rw [Except.ok.inj hheader] at hreach
    exact absurd hlt (Nat.not_lt.2 hreach)

end Loader

/-! ## Artifacts of drafts -/

theorem Contiguous.stop_getLast {first last : Nat} {extents : List Extent}
    (h : Contiguous first extents last) (hne : extents ≠ []) :
    (extents.getLast hne).stop = last := by
  induction extents generalizing first with
  | nil => exact absurd rfl hne
  | cons e rest ih =>
    obtain ⟨-, hrest⟩ := h
    cases rest with
    | nil => exact hrest
    | cons e' rest => exact ih hrest (List.cons_ne_nil _ _)

/-- The artifact of a draft ends with its last section. -/
theorem Draft.reach_of_encode {d : Draft} {h : Header} {bytes : Bytes}
    (henc : d.encode = .ok bytes) (hh : Header.decode bytes = .ok h) :
    h.reach = bytes.length := by
  obtain ⟨h', hheader, rfl⟩ := encode_eq_ok.1 henc
  obtain rfl : h = h' := Except.ok.inj (hh.symm.trans (h'.decode_encode _))
  have hne : h.sections.map Prod.snd ≠ [] :=
    fun hnil => h.sections_ne_nil (List.map_eq_nil_iff.1 hnil)
  have hlast := (stored_of_header hheader).contiguous.stop_getLast hne
  rw [List.getLast_map] at hlast
  rw [Header.reach, Header.lastStop, hlast, List.length_append, Header.length_encode]

namespace Loader

variable {loader : Loader} {artifact other : Region} {l : Language}

/-- An artifact that is accepted has a length at which it may be cut, and from which on it may be
replaced, without changing what is read from it; every shorter part of it is refused. For the
artifact of a draft this is its whole length. -/
theorem load_threshold (hl : loader.load (some artifact) = .ok l) :
    l.header.reach ≤ artifact.bytes.length ∧
    (∀ other : Region, other.bytes.take l.header.reach = artifact.bytes.take l.header.reach →
      ∃ l', loader.load (some other) = .ok l' ∧ l'.name = l.name ∧ l'.header = l.header ∧
        (∀ s, l'.section? s = l.section? s) ∧
        ∀ s ∈ Section.ofVersion l.version, ∃ data, l'.section? s = some data) ∧
    (∀ other : Region, other.bytes <+: artifact.bytes → other.bytes.length < l.header.reach →
      ∃ e, loader.load (some other) = .error e) ∧
    ∀ d : Draft, d.encode = .ok artifact.bytes →
      ∀ other : Region, other.bytes <+: artifact.bytes → other.bytes ≠ artifact.bytes →
        ∃ e, loader.load (some other) = .error e := by
  have hdecode := (load_eq_ok.1 hl).1
  refine ⟨reach_le_length hl, fun other htake => ?_, fun other => load_of_prefix_lt hl, ?_⟩
  · obtain ⟨l', hl', hname, hheader, hsections⟩ := load_of_take_eq hl htake
    refine ⟨l', hl', hname, hheader, hsections, fun s hs => ?_⟩
    obtain ⟨_, data, -, -, hdata, -⟩ := exists_section hl hs
    exact ⟨data, (hsections s).trans hdata⟩
  · intro d henc other hpre hne
    refine load_of_prefix_lt hl hpre ?_
    rw [Draft.reach_of_encode henc hdecode]
    exact Nat.lt_of_le_of_ne hpre.length_le fun heq => hne (hpre.eq_of_length heq)

set_option maxRecDepth 4000 in
theorem load_threshold_straight : ∃ bytes l, Draft.straight.encode = .ok bytes ∧
    (default : Loader).load (some (.whole 0 (bytes ++ [9, 9]))) = .ok l ∧
    (∃ l', (default : Loader).load (some (.whole 1 (bytes ++ [1]))) = .ok l' ∧
      l'.header = l.header ∧ ∃ data, l'.section? .primaryStateIds = some data) ∧
    ∃ e, (default : Loader).load (some (.whole 1 bytes.dropLast)) = .error e := by
  obtain ⟨bytes, l, henc, hl, hreach, hlast, hversion⟩ : ∃ bytes l,
      Draft.straight.encode = .ok bytes ∧
      (default : Loader).load (some (.whole 0 (bytes ++ [9, 9]))) = .ok l ∧
      l.header.reach = bytes.length ∧ bytes.dropLast.length < bytes.length ∧ l.version = 14 :=
    ⟨_, _, rfl, rfl, rfl, by decide, rfl⟩
  obtain ⟨-, hother, hcut, -⟩ := load_threshold hl
  rw [hreach] at hother hcut
  obtain ⟨l', hl', -, hheader, -, hsections⟩ := hother (.whole 1 (bytes ++ [1]))
    (List.take_left.trans List.take_left.symm)
  have hids : .primaryStateIds ∈ Section.ofVersion l.version := by
    rw [hversion]
    decide
  have hpre := bytes.dropLast_prefix.trans (bytes.prefix_append [9, 9])
  exact ⟨bytes, l, henc, hl, ⟨l', hl', hheader, hsections _ hids⟩,
    hcut (.whole 1 bytes.dropLast) hpre hlast⟩

end Loader

end GrammarArtifact
