import RetryWeave.Proofs.Naming.Shape
import RetryWeave.Proofs.Text.Quoting

/-! # Names that do not depend on other names

With hashed names a base has one name that depends on the stem, the seed and the base only. A supply
gives it out unless it is reserved: no name for another base can be the same, since after its last
underscore each name has the digits of its own hash and perhaps a number, and before it the base. -/

namespace RetryWeave

/-! ## Hashes -/

theorem Sha1.length_digest (msg : Bytes) : (digest msg).length = 20 := rfl

theorem NameId.length_make (space name : Bytes) : (make space name).length = 16 := by
  simp only [make, List.length_set, List.length_take, Sha1.length_digest]
  rfl

namespace NameSupply

theorem length_suffix (seed base : Bytes) : (suffix seed base).length = 8 := by
  have hbytes : ∀ bs : Bytes, (bs.flatMap fun b => Quoted.hexDigits 2 b.toNat).length = 2 * bs.length := by
    intro bs
    induction bs with
    | nil => rfl
    | cons b bs ih =>
        rw [List.flatMap_cons, List.length_append, ih, Quoted.length_hexDigits, List.length_cons]
        omega
  rw [suffix, NameId.shortText, hbytes, List.length_take, NameId.length_make]
  rfl

theorem isHexDigit_of_mem_suffix (seed base : Bytes) :
    ∀ b ∈ suffix seed base, Ascii.isHexDigit b = true := by
  intro b hb
  obtain ⟨x, _, hx⟩ := List.mem_flatMap.mp hb
  exact Quoted.isHexDigit_of_mem_hexDigits b hx

/-- The name of a base if it is not taken: a hash after an underscore keeps it apart. -/
def hashedName (stem seed base : Bytes) : Bytes := joined stem base ++ "_" ++ suffix seed base

theorem hashedName_block :
    hashedName "retry" "main.go:fetchData" "block" = "retryBlock_4ffe6f13" := by
  decide +kernel

theorem candidate_hashed (stem seed : Bytes) (taken : List Bytes) (base : Bytes) :
    (⟨.hashed seed, stem, taken⟩ : NameSupply).candidate base = hashedName stem seed base := rfl

end NameSupply

namespace RetryLoop

open NameSupply

/-! ## Bases -/

/-- A base of a name of some loop. -/
def IsBase (base : Bytes) : Prop := ∃ count, base ∈ bases count

theorem IsBase.exists_cons {base : Bytes} (h : IsBase base) :
    ∃ c rest, base = c :: rest ∧ c ∈ ([97, 98, 101, 114] : Bytes) := by
  obtain ⟨count, hmem⟩ := h
  obtain ⟨c, core, tail, rfl, hc, -, -⟩ := exists_core_of_mem_bases hmem
  exact ⟨c, core ++ tail, rfl, hc⟩

theorem IsBase.joined_inj {stem base base' : Bytes} (h : IsBase base) (h' : IsBase base')
    (heq : joined stem base = joined stem base') : base = base' := by
  obtain ⟨c, rest, rfl, hc⟩ := h.exists_cons
  obtain ⟨d, rest', rfl, hd⟩ := h'.exists_cons
  rw [joined_cons stem hc, joined_cons stem hd] at heq
  split at heq
  · exact heq
  · obtain ⟨hletter, hrest⟩ := List.cons.inj (List.append_cancel_left heq)
    rw [hrest, (UInt8.sub_left_inj 32).mp hletter]

theorem head?_of_mem_valueBases {count : Nat} {base : Bytes} (h : base ∈ valueBases count) :
    base.head? = some 114 := by
  obtain ⟨digits, rfl, -⟩ := exists_digits_of_mem_valueBases h
  rfl

theorem valueBases_nodup (count : Nat) : (valueBases count).Nodup := by
  unfold valueBases
  split
  · exact List.nodup_singleton _
  · refine List.nodup_range.map fun i j h => ?_
    exact Bytes.ofNat_injective (List.append_cancel_left h)

theorem bases_nodup (count : Nat) : (bases count).Nodup := by
  have hother : ∀ base : Bytes, base.head? ≠ some 114 → base ∉ valueBases count := fun base hne hmem =>
    hne (head?_of_mem_valueBases hmem)
  refine List.nodup_cons.mpr ⟨?_, List.nodup_cons.mpr ⟨?_, ?_⟩⟩
  · rw [List.mem_cons, List.mem_append, List.mem_singleton]
    rintro (h | h | h)
    · exact absurd h (by decide)
    · exact hother _ (by decide) h
    · exact absurd h (by decide)
  · rw [List.mem_append, List.mem_singleton]
    rintro (h | h)
    · exact hother _ (by decide) h
    · exact absurd h (by decide)
  · rw [List.nodup_append]
    refine ⟨valueBases_nodup count, List.nodup_singleton _, ?_⟩
    rintro base hbase err herr rfl
    exact hother base (by rw [List.mem_singleton.mp herr]; decide) hbase

/-! ## Names of different bases -/

theorem eq_of_append_cons_eq {sep : UInt8} {a b x y : Bytes} (h : a ++ sep :: x = b ++ sep :: y)
    (hx : sep ∉ x) (hy : sep ∉ y) : a = b ∧ x = y := by
  rcases List.append_eq_append_iff.mp h with ⟨z, hb, hz⟩ | ⟨z, ha, hz⟩
  · cases z with
    | nil => exact ⟨by rw [hb, List.append_nil], (List.cons.inj hz).2⟩
    | cons c z => exact absurd ((List.cons.inj hz).2 ▸ by simp) hx
  · cases z with
    | nil => exact ⟨by rw [ha, List.append_nil], (List.cons.inj hz).2.symm⟩
    | cons c z => exact absurd ((List.cons.inj hz).2 ▸ by simp) hy

/-- No numbered name of another base is the name of a base, whatever the hashes are. -/
theorem hashedName_ne_append {stem seed base base' digits : Bytes} (hbase : IsBase base)
    (hbase' : IsBase base') (hne : base' ≠ base) (hdigits : ∀ b ∈ digits, Ascii.isDigit b = true) :
    hashedName stem seed base ≠ hashedName stem seed base' ++ digits := by
  have hplain : ∀ b : Bytes, Ascii.underscore ∉ suffix seed b := by
    intro b hmem
    exact absurd (isHexDigit_of_mem_suffix seed b _ hmem) (by decide)
  intro h
  have hcut : joined stem base ++ Ascii.underscore :: suffix seed base =
      joined stem base' ++ Ascii.underscore :: (suffix seed base' ++ digits) := by
    have hmark : Bytes.ofString "_" = [Ascii.underscore] := rfl
    simpa [hashedName, hmark] using h
  have hparts := eq_of_append_cons_eq hcut (hplain base) ?_
  · exact hne (hbase.joined_inj hbase' hparts.1).symm
  · rw [List.mem_append, not_or]
    exact ⟨hplain base', fun hmem => absurd (hdigits _ hmem) (by decide)⟩

theorem hashedName_ne {stem seed base base' : Bytes} (hbase : IsBase base) (hbase' : IsBase base')
    (hne : base' ≠ base) : hashedName stem seed base ≠ hashedName stem seed base' := by
  have h : hashedName stem seed base ≠ hashedName stem seed base' ++ [] :=
    hashedName_ne_append hbase hbase' hne nofun
  rwa [List.append_nil] at h

/-! ## Requests -/

/-- Requests for other bases do not take the name of a base. -/
theorem hashedName_notMem_freshAll {stem seed base : Bytes} (hbase : IsBase base) {earlier : List Bytes}
    (hearlier : ∀ b ∈ earlier, IsBase b ∧ b ≠ base) (taken : List Bytes) :
    hashedName stem seed base ∉
      ((⟨.hashed seed, stem, taken⟩ : NameSupply).freshAll earlier).1 := by
  intro hmem
  obtain ⟨base', hbase', digits, heq, hdigits⟩ := exists_base_of_mem_freshAll _ _ hmem
  rw [candidate_hashed] at heq
  exact hashedName_ne_append hbase (hearlier base' hbase').1 (hearlier base' hbase').2 hdigits heq

/-- The first request for a base gets its name unless that was reserved from the start. -/
theorem fresh_after_iff {stem seed base : Bytes} (hbase : IsBase base) {earlier : List Bytes}
    (hearlier : ∀ b ∈ earlier, IsBase b ∧ b ≠ base) (taken : List Bytes) :
    (((⟨.hashed seed, stem, taken⟩ : NameSupply).freshAll earlier).2.fresh base).1 =
      hashedName stem seed base ↔ hashedName stem seed base ∉ taken := by
  rw [freshAll_snd, fresh]
  simp only [candidate_hashed, firstFree_eq_self_iff, List.mem_append, List.mem_reverse, not_or,
    hashedName_notMem_freshAll hbase hearlier taken, not_false_eq_true, true_and]

/-- Different bases whose names are free get their names. -/
theorem freshAll_eq_map {stem seed : Bytes} {bs : List Bytes} (hbases : ∀ b ∈ bs, IsBase b)
    (hnodup : bs.Nodup) {taken : List Bytes} (hfree : ∀ b ∈ bs, hashedName stem seed b ∉ taken) :
    ((⟨.hashed seed, stem, taken⟩ : NameSupply).freshAll bs).1 = bs.map (hashedName stem seed) := by
  induction bs generalizing taken with
  | nil => rfl
  | cons base bs ih =>
      obtain ⟨hnot, hnodup⟩ := List.nodup_cons.mp hnodup
      simp only [List.mem_cons, forall_eq_or_imp] at hbases hfree
      have hname : firstFree taken (hashedName stem seed base) = hashedName stem seed base :=
        firstFree_eq_self_iff.mpr hfree.1
      rw [freshAll_cons, List.map_cons]
      simp only [fresh, candidate_hashed, hname]
      congr 1
      refine ih hbases.2 hnodup fun b hb hmem => ?_
      rcases List.mem_cons.mp hmem with heq | hmem
      · have hne : base ≠ b := fun h => hnot (h ▸ hb)
        exact hashedName_ne (hbases.2 b hb) hbases.1 hne heq
      · exact hfree.2 b hb hmem

theorem Built.names_eq_map {defaults : Defaults} {directive : Directive} {target : Option Owner}
    {contextName : Option Bytes} {stem seed : Bytes} {taken : List Bytes} {signature : Signature}
    {l : RetryLoop}
    (h : Built defaults directive target contextName ⟨.hashed seed, stem, taken⟩ signature l)
    (hfree : ∀ b ∈ bases l.values.length, hashedName stem seed b ∉ taken) :
    l.names = (bases l.values.length).map (hashedName stem seed) := by
  rw [h.names_eq, ← h.values_length]
  exact freshAll_eq_map (fun b hb => ⟨_, hb⟩) (bases_nodup _) hfree

end RetryLoop

/-! ## Expansions -/

open NameSupply

namespace Plan

theorem exists_built {o : Options} {name src : Bytes} {p : Plan} (hp : ofSource? o name src = some p)
    {e : Expansion} (he : e ∈ p.expansions) :
    ∃ directive signature, RetryLoop.Built o.defaults directive (some (.func e.decl))
      p.file.contextName? (o.names name e.name p.file.idents) signature e.loop := by
  obtain ⟨f, hf, rfl⟩ := Option.map_eq_some_iff.mp hp
  obtain ⟨ruling, hruling, hexpansion⟩ := List.mem_filterMap.mp he
  obtain ⟨g, -, rfl⟩ := List.mem_map.mp hruling
  exact (builtFor_of_rule hexpansion).built

theorem names_eq_map {o : Options} (ho : o.naming = .hashed) {name src : Bytes} {p : Plan}
    (hp : ofSource? o name src = some p) {e : Expansion} (he : e ∈ p.expansions)
    (hfree : ∀ b ∈ RetryLoop.bases e.loop.values.length,
      hashedName o.stem (Path.base name ++ ":" ++ e.name) b ∉ p.file.idents) :
    e.loop.names = (RetryLoop.bases e.loop.values.length).map
      (hashedName o.stem (Path.base name ++ ":" ++ e.name)) := by
  obtain ⟨directive, signature, hbuilt⟩ := exists_built hp he
  simp only [Options.names, ho] at hbuilt
  exact hbuilt.names_eq_map hfree

end Plan

/-- A base has one hashed name, whatever is reserved and whatever was requested before: the first request
for it gets that name unless it was reserved, and no request for another base does. So an expansion
keeps its names when its file is edited, unless one of them occurs in the file before or after. -/
theorem hashed_names_stable :
    (∀ stem seed base : Bytes, RetryLoop.IsBase base →
      (∃ c rest, base = c :: rest ∧ hashedName stem seed base =
        (if stem = [] then c :: rest else stem ++ (c - 32) :: rest) ++ "_" ++
          NameId.shortText (NameId.make suffixSpace (seed ++ [Ascii.nul] ++ base))) ∧
      (suffix seed base).length = 8 ∧ (∀ b ∈ suffix seed base, Ascii.isHexDigit b = true) ∧
      ∀ taken taken' earlier earlier' : List Bytes,
        (∀ b ∈ earlier, RetryLoop.IsBase b ∧ b ≠ base) →
        (∀ b ∈ earlier', RetryLoop.IsBase b ∧ b ≠ base) →
        let run := (⟨.hashed seed, stem, taken⟩ : NameSupply).freshAll earlier
        let run' := (⟨.hashed seed, stem, taken'⟩ : NameSupply).freshAll earlier'
        hashedName stem seed base ∉ run.1 ∧ hashedName stem seed base ∉ run'.1 ∧
        (hashedName stem seed base ∉ taken → hashedName stem seed base ∉ taken' →
          (run.2.fresh base).1 = hashedName stem seed base ∧
          (run'.2.fresh base).1 = hashedName stem seed base)) ∧
    ∀ (o : Options) (name src src' : Bytes) (p p' : Plan) (e e' : Expansion), o.naming = .hashed →
      Plan.ofSource? o name src = some p → Plan.ofSource? o name src' = some p' →
      e ∈ p.expansions → e' ∈ p'.expansions → e'.name = e.name →
      e'.loop.values.length = e.loop.values.length →
      (∀ base ∈ RetryLoop.bases e.loop.values.length,
        hashedName o.stem (Path.base name ++ ":" ++ e.name) base ∉ p.file.idents ∧
        hashedName o.stem (Path.base name ++ ":" ++ e.name) base ∉ p'.file.idents) →
      e'.loop.names = e.loop.names := by
  refine ⟨fun stem seed base hbase => ⟨?_, length_suffix seed base, isHexDigit_of_mem_suffix seed base, ?_⟩, ?_⟩
  · obtain ⟨c, rest, rfl, hc⟩ := hbase.exists_cons
    exact ⟨c, rest, rfl, by rw [hashedName, RetryLoop.joined_cons stem hc, suffix]⟩
  · intro taken taken' earlier earlier' hearlier hearlier'
    refine ⟨RetryLoop.hashedName_notMem_freshAll hbase hearlier taken,
      RetryLoop.hashedName_notMem_freshAll hbase hearlier' taken', fun hfree hfree' => ⟨?_, ?_⟩⟩
    · exact (RetryLoop.fresh_after_iff hbase hearlier taken).mpr hfree
    · exact (RetryLoop.fresh_after_iff hbase hearlier' taken').mpr hfree'
  · intro o name src src' p p' e e' ho hp hp' he he' hname hcount hfree
    rw [Plan.names_eq_map ho hp he fun b hb => (hfree b hb).1,
      Plan.names_eq_map ho hp' he' (by
        rw [hname, hcount]
        exact fun b hb => (hfree b hb).2), hname, hcount]

/-- A function with a directive. -/
def loneSource : Bytes := "package p\n\n//retry:onfailure 3\nfunc f() error \x7b return nil \x7d\n"

/-- The same function below one that takes a name of another strategy. -/
def joinedSource : Bytes :=
  "package p\n\nfunc retryBlock() \x7b\x7d\n\n" ++
    "//retry:onfailure 3\nfunc f() error \x7b return nil \x7d\n"

/-- The default options but for the names. -/
def Options.hashed : Options where
  directive := defaultDirective
  stem := defaultStem
  naming := .hashed
  defaults := ⟨defaultRetries, defaultMessage⟩

/-- Other requests and reserved names leave the name of a block as it is, and so does another function
the names of an expansion. -/
theorem hashed_names_stable_beside_others :
    RetryLoop.IsBase "block" ∧
    (((⟨.hashed "main.go:fetchData", "retry", ["retryBlock"]⟩ : NameSupply).freshAll
      ["attempts", "err"]).2.fresh "block").1 = "retryBlock_4ffe6f13" ∧
    (((⟨.hashed "main.go:fetchData", "retry", ["x", "retryErr"]⟩ : NameSupply).freshAll
      ["err", "err"]).2.fresh "block").1 = "retryBlock_4ffe6f13" ∧
    ∃ p ∈ Plan.ofSource? .hashed "main.go" loneSource,
      ∃ p' ∈ Plan.ofSource? .hashed "main.go" joinedSource,
        ∃ e ∈ p.expansions, ∃ e' ∈ p'.expansions, e'.loop.names = e.loop.names := by
  have hblock : RetryLoop.IsBase "block" := ⟨0, by decide⟩
  have hother : ∀ b : Bytes, b ∈ (["attempts", "err"] : List Bytes) →
      RetryLoop.IsBase b ∧ b ≠ Bytes.ofString "block" := fun b hb =>
    ⟨⟨0, by revert b; decide⟩, by revert b; decide⟩
  obtain ⟨-, -, -, hruns⟩ := hashed_names_stable.1 "retry" "main.go:fetchData" "block" hblock
  obtain ⟨-, -, hnames⟩ := hruns ["retryBlock"] ["x", "retryErr"] ["attempts", "err"] ["err", "err"]
    hother fun b hb => hother b (List.mem_cons_of_mem _ (by simpa using hb))
  rw [hashedName_block] at hnames
  obtain ⟨hname, hname'⟩ := hnames (by decide) (by decide)
  refine ⟨hblock, hname, hname', ?_⟩
  have hedit : ∃ p ∈ Plan.ofSource? .hashed "main.go" loneSource,
      ∃ p' ∈ Plan.ofSource? .hashed "main.go" joinedSource,
        ∃ e ∈ p.expansions, ∃ e' ∈ p'.expansions, e'.name = e.name ∧
          e'.loop.values.length = e.loop.values.length ∧
          ∀ base ∈ RetryLoop.bases e.loop.values.length,
            hashedName Options.hashed.stem (Path.base "main.go" ++ ":" ++ e.name) base ∉
              p.file.idents ∧
            hashedName Options.hashed.stem (Path.base "main.go" ++ ":" ++ e.name) base ∉
              p'.file.idents := by
    decide +kernel
  obtain ⟨p, hp, p', hp', e, he, e', he', hsame, hcount, hfree⟩ := hedit
  exact ⟨p, hp, p', hp', e, he, e', he', hashed_names_stable.2 .hashed "main.go" loneSource joinedSource
    p p' e e' rfl hp hp' he he' hsame hcount hfree⟩

end RetryWeave
