import RetryWeave.Proofs.Expansion.Rerun
import RetryWeave.Proofs.Text.Fields

/-! # The texts of directives

A directive is the slashes, its name and a rest that is set off from the name; the fields of the rest
are its arguments. So a directive that is written from a name and arguments is read back, and it is no
directive of another name. -/

namespace RetryWeave.Directive

open Bytes (HasFields IsWord IsGap SetOff fields spread)

variable {name name' text rest : Bytes} {args : List Bytes}

theorem args?_append (h : SetOff rest) : args? name (opening name ++ rest) = some (fields rest) := by
  rcases h with rfl | ⟨b, rest, rfl, hb⟩
  · rw [List.append_nil]
    exact args?_opening name
  · rw [args?, ← opening, Bytes.stripStart?_append]
    simp [hb]

theorem isSome_args?_iff :
    (args? name text).isSome = true ↔ ∃ rest, text = opening name ++ rest ∧ SetOff rest := by
  constructor
  · intro h
    obtain ⟨rest, rfl⟩ := exists_append_of_isSome h
    refine ⟨rest, rfl, ?_⟩
    cases rest with
    | nil => exact .inl rfl
    | cons b rest => exact .inr ⟨b, rest, rfl, by rwa [← isSome_args?_append_cons name b rest]⟩
  · intro h
    obtain ⟨rest, rfl, hrest⟩ := h
    rw [args?_append hrest]
    rfl

theorem args?_eq_some_iff :
    args? name text = some args ↔
      ∃ rest, text = opening name ++ rest ∧ SetOff rest ∧ args = fields rest := by
  constructor
  · intro h
    obtain ⟨rest, rfl, hrest⟩ := isSome_args?_iff.mp (by rw [h]; rfl)
    rw [args?_append hrest, Option.some.injEq] at h
    exact ⟨rest, rfl, hrest, h.symm⟩
  · intro h
    obtain ⟨rest, rfl, hrest, rfl⟩ := h
    exact args?_append hrest

/-- A directive that is written with gaps before its arguments is read back. -/
theorem args?_spread (name : Bytes) {pieces : List (Bytes × Bytes)}
    (h : ∀ piece ∈ pieces, IsGap piece.1 ∧ IsWord piece.2) :
    args? name (opening name ++ spread pieces) = some (pieces.map (·.2)) := by
  rw [args?_append (Bytes.setOff_spread fun piece hpiece => (h piece hpiece).1),
    Bytes.fields_spread h]

/-- Arguments that were read can be written with single spaces. -/
theorem args?_rewritten (h : args? name text = some args) :
    args? name (opening name ++ spread (args.map fun arg => ([Ascii.space], arg))) = some args := by
  obtain ⟨rest, -, -, rfl⟩ := args?_eq_some_iff.mp h
  have hpieces : ∀ piece ∈ (fields rest).map fun arg => ([Ascii.space], arg),
      IsGap piece.1 ∧ IsWord piece.2 := by
    intro piece hpiece
    obtain ⟨arg, harg, rfl⟩ := List.mem_map.mp hpiece
    exact ⟨⟨by simp, by simp [Ascii.isBlank]⟩, Bytes.isWord_of_mem_fields harg⟩
  simpa using args?_spread name hpieces

/-- Of two names that begin a directive the longer one would go on with a blank. -/
theorem eq_of_opening_eq {rest' : Bytes} (hname : ∀ b ∈ name', Ascii.isBlank b = false)
    (hrest : SetOff rest) (h : opening name ++ rest = opening name' ++ rest')
    (hle : name.length ≤ name'.length) : name = name' := by
  simp only [opening, List.append_assoc, List.append_cancel_left_eq] at h
  obtain ⟨more, rfl⟩ := List.prefix_of_prefix_length_le (List.prefix_append name rest)
    (h ▸ List.prefix_append name' rest') hle
  rw [List.append_assoc, List.append_cancel_left_eq] at h
  cases more with
  | nil => rw [List.append_nil]
  | cons b more =>
      rcases hrest with rfl | ⟨c, tail, rfl, hc⟩
      · cases h
      · obtain rfl := (List.cons.inj h).1
        rw [hname c (by simp)] at hc
        cases hc

theorem name_eq_of_isSome (hname : ∀ b ∈ name, Ascii.isBlank b = false)
    (hname' : ∀ b ∈ name', Ascii.isBlank b = false) (h : (args? name text).isSome = true)
    (h' : (args? name' text).isSome = true) : name = name' := by
  obtain ⟨rest, htext, hrest⟩ := isSome_args?_iff.mp h
  obtain ⟨rest', htext', hrest'⟩ := isSome_args?_iff.mp h'
  have heq : opening name ++ rest = opening name' ++ rest' := htext ▸ htext'
  rcases Nat.le_total name.length name'.length with hle | hle
  · exact eq_of_opening_eq hname' hrest heq hle
  · exact (eq_of_opening_eq hname hrest' heq.symm hle).symm

/-- A text is a directive if and only if it is the slashes, the name, and a rest that is empty or
begins with a space or a tab; its arguments are the maximal runs without white space of the rest, in
order. A directive that is written with spaces and tabs before its arguments is read back, also when
the arguments come from another text. And a text is a directive of one name without blanks only. -/
theorem args?_grammar :
    (∀ name text, (args? name text).isSome = true ↔
      ∃ rest, text = "//" ++ name ++ rest ∧ SetOff rest) ∧
    (∀ name text args, args? name text = some args ↔
      ∃ rest, text = "//" ++ name ++ rest ∧ SetOff rest ∧ HasFields rest args) ∧
    (∀ name text args, args? name text = some args → ∀ arg ∈ args, IsWord arg) ∧
    (∀ name (pieces : List (Bytes × Bytes)), (∀ piece ∈ pieces, IsGap piece.1 ∧ IsWord piece.2) →
      args? name ("//" ++ name ++ pieces.flatMap fun piece => piece.1 ++ piece.2) =
        some (pieces.map (·.2))) ∧
    (∀ name text args, args? name text = some args →
      args? name ("//" ++ name ++ args.flatMap fun arg => Ascii.space :: arg) = some args) ∧
    ∀ name name' text, name ≠ name' → (∀ b ∈ name, Ascii.isBlank b = false) →
      (∀ b ∈ name', Ascii.isBlank b = false) → args? name text = none ∨ args? name' text = none := by
  refine ⟨fun name text => isSome_args?_iff, fun name text args => ?_, fun name text args h => ?_,
    fun name pieces => args?_spread name, fun name text args h => ?_,
    fun name name' text hne hname hname' => ?_⟩
  · simp only [Bytes.hasFields_iff]
    exact args?_eq_some_iff
  · obtain ⟨rest, -, -, rfl⟩ := args?_eq_some_iff.mp h
    exact fun arg => Bytes.isWord_of_mem_fields
  · have hagain := args?_rewritten h
    rwa [spread, List.flatMap_map] at hagain
  · by_contra hboth
    rw [not_or] at hboth
    exact hne (name_eq_of_isSome hname hname' (Option.isSome_iff_ne_none.mpr hboth.1)
      (Option.isSome_iff_ne_none.mpr hboth.2))

/-- The last argument ends in the middle of a character, before a tab that would be read with it. -/
theorem args?_grammar_truncated :
    let pieces : List (Bytes × Bytes) := [([32, 9], Bytes.ofString "n=3"), ([9], [0xE2, 0x80]), ([9, 9], [0xA0])]
    (∀ piece ∈ pieces, IsGap piece.1 ∧ IsWord piece.2) ∧
      args? "again" (Bytes.ofString "//again \tn=3\t" ++ [0xE2, 0x80, 9, 9, 0xA0]) =
        some [Bytes.ofString "n=3", [0xE2, 0x80], [0xA0]] := by
  intro pieces
  have hpieces : ∀ piece ∈ pieces, IsGap piece.1 ∧ IsWord piece.2 := by
    unfold IsGap IsWord
    set_option maxRecDepth 2000 in decide
  exact ⟨hpieces, args?_grammar.2.2.2.1 "again" pieces hpieces⟩

end RetryWeave.Directive
