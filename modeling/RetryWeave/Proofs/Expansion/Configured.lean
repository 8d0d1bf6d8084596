import RetryWeave.Config
import RetryWeave.Proofs.Expansion.Rulings
import RetryWeave.Proofs.Naming.Shape

/-! # Accepted configurations

A configuration that passes its checks is taken over as it is: no later default replaces what it says,
and a bare directive on a function that can be expanded leads to an expansion with its budget and its
names. The comments that document a function lead to its keyword, and nothing else in the file is led
to by them, so the function is what they belong to. -/

namespace RetryWeave

open Syntax

/-! ## What comments lead to -/

section

variable {src : Bytes} {tokens : List Token} {groups : List CommentGroup} {f : File}
  {d d' : FuncDecl} {g : CommentGroup}

/-- A group of comments leads to one token at the most. -/
theorem Syntax.Placed.token_eq_of_lead (h : Placed src tokens groups) {t u : Token}
    (ht : t ∈ tokens) (hu : u ∈ tokens) (htkind : t.kind ≠ .semicolon)
    (hukind : u.kind ≠ .semicolon) (htlead : t.lead = some g) (hulead : u.lead = some g) : t = u := by
  obtain ⟨c, rest, hc⟩ := List.exists_cons_of_ne_nil (h.list_ne_nil g (h.lead_mem t ht g htlead))
  have hmem : c ∈ g.list := by simp [hc]
  have hfits := (h.comment_fits g (h.lead_mem t ht g htlead) c hmem).start_lt_reach
  -- neither token is over when the comments begin
  have hafter : ∀ v ∈ tokens, v.kind ≠ .semicolon → v.lead = some g → ¬ v.stop ≤ c.start := by
    intro v hv hkind hlead hstop
    have hbefore := h.lead_before v hv (h.implied_eq_false hv hkind) g hlead c hmem
    have hstart := (h.fits hv hkind).start_le
    omega
  have : Std.Symm fun v w : Token => ¬ (v.kind ≠ .semicolon ∧ v.lead = some g ∧
      w.kind ≠ .semicolon ∧ w.lead = some g) := ⟨fun _ _ hnot h => hnot ⟨h.2.2.1, h.2.2.2, h.1, h.2.1⟩⟩
  have hapart : tokens.Pairwise fun v w => ¬ (v.kind ≠ .semicolon ∧ v.lead = some g ∧
      w.kind ≠ .semicolon ∧ w.lead = some g) :=
    h.lead_after.imp_of_mem fun hv _ hlead ⟨hvkind, hvlead, _, hwlead⟩ =>
      hafter _ hv hvkind hvlead (hlead (h.implied_eq_false hv hvkind) g hwlead c hmem)
  by_contra hne
  exact hapart.forall ht hu hne ⟨htkind, htlead, hukind, hulead⟩

/-- A group of comments documents one function at the most. -/
theorem Syntax.FilePlaced.func_eq_of_doc (hf : FilePlaced src tokens f) (hd : d ∈ f.funcs)
    (hd' : d' ∈ f.funcs) (hdoc : d.doc = some g) (hdoc' : d'.doc = some g) : d = d' := by
  obtain ⟨m, hm, hsublist⟩ := hf.marked d hd
  obtain ⟨m', hm', hsublist'⟩ := hf.marked d' hd'
  have htoken : m.func = m'.func :=
    hf.placed.token_eq_of_lead (hsublist.subset List.mem_cons_self)
      (hsublist'.subset List.mem_cons_self) (by simp [hm.kind]) (by simp [hm'.kind])
      (hm.doc.symm.trans hdoc) (hm'.doc.symm.trans hdoc')
  have hstart' : d'.start = some m.func.start := htoken ▸ hm'.start
  have : Std.Symm fun d d' => FuncDecl.Before tokens d d' ∨ FuncDecl.Before tokens d' d :=
    ⟨fun _ _ => Or.symm⟩
  have heither : f.funcs.Pairwise fun d d' =>
      FuncDecl.Before tokens d d' ∨ FuncDecl.Before tokens d' d := hf.ordered.imp Or.inl
  by_contra hne
  rcases heither.forall hd hd' hne with hbefore | hbefore
  · exact absurd (hf.start_lt_start hbefore hm.start hstart') (Nat.lt_irrefl _)
  · exact absurd (hf.start_lt_start hbefore hstart' hm.start) (Nat.lt_irrefl _)

theorem Syntax.mem_nodes_of_mem_funcs (hd : d ∈ f.funcs) : .func d ∈ f.nodes := by
  obtain ⟨decl, hdecl, hfunc⟩ := List.mem_filterMap.mp hd
  cases decl with
  | gen => cases hfunc
  | func d' =>
      cases hfunc
      exact List.mem_cons_of_mem _ (List.mem_flatMap.mpr ⟨_, hdecl, List.mem_cons_self⟩)

/-- What documents a function belongs to the function. -/
theorem Owner.find?_doc (hf : FilePlaced src tokens f) (hled : AllLed tokens f.nodes)
    (hd : d ∈ f.funcs) (hdoc : d.doc = some g) : find? (index f) g = some (.func d) := by
  have hg := (hf.doc_before hd hdoc).1
  have hmem : (g, Owner.func d) ∈ index f :=
    List.mem_filterMap.mpr ⟨.func d, mem_nodes_of_mem_funcs hd, by simp [ofNode?, hdoc]⟩
  obtain ⟨owner, howner⟩ := Option.isSome_iff_exists.mp (isSome_find? hmem)
  obtain ⟨node, hnode, hof⟩ := List.mem_filterMap.mp (mem_index_of_find? hf hled hg howner)
  obtain ⟨t, ht, hlead, hsemi, hfunc, -⟩ := hled node hnode g owner hof
  obtain ⟨m, hm, hsublist⟩ := hf.marked d hd
  have htoken : t = m.func := hf.placed.token_eq_of_lead ht (hsublist.subset List.mem_cons_self)
    hsemi (by simp [hm.kind]) hlead (hm.doc.symm.trans hdoc)
  obtain ⟨d', rfl⟩ := hfunc (htoken ▸ hm.kind)
  obtain ⟨hd', hdoc'⟩ := Plan.find?_eq_func hf hg howner
  rw [howner, hf.func_eq_of_doc hd' hd hdoc' hdoc]

end

/-! ## Functions that ask for an expansion -/

/-- A function can be expanded: it has a body, and the last of its results is an error. The comments
`g` document it, and `first` is the first directive among them. -/
structure Syntax.FuncDecl.Asks (directive : Bytes) (d : FuncDecl) (g : CommentGroup)
    (first : Comment) (results : FieldList) : Prop where
  doc : d.doc = some g
  find_first : g.list.find? (fun c => (Directive.args? directive c.text).isSome) = some first
  results_eq : d.type.results = some results
  error : ∃ f id, results.list.getLast? = some f ∧ f.type = .ident id ∧
    id.name = Bytes.ofString "error"
  body : d.body.isSome = true

namespace Syntax.FuncDecl.Asks

variable {directive : Bytes} {d : FuncDecl} {g : CommentGroup} {first : Comment}
  {results : FieldList}

theorem fallible?_eq (h : Asks directive d g first results) :
    (Signature.mk d.name.name d.type d.body).fallible? = some results := by
  obtain ⟨⟨_, _, _, _, _⟩, id, hlast, rfl, hname⟩ := h.error
  exact Option.filter_eq_some_iff.mpr ⟨h.results_eq, by simp [hlast, hname]⟩

/-- The directives of the group are `first` and those after it. -/
theorem exists_more (h : Asks directive d g first results) {args : List Bytes}
    (hargs : Directive.args? directive first.text = some args) :
    ∃ more, (g.list.filterMap fun c => (Directive.args? directive c.text).map fun args =>
      (⟨c, args⟩ : DirectiveComment)) = ⟨first, args⟩ :: more := by
  obtain ⟨-, before, after, hlist, hbefore⟩ := List.find?_eq_some_iff_append.mp h.find_first
  refine ⟨after.filterMap fun c => (Directive.args? directive c.text).map fun args => ⟨c, args⟩, ?_⟩
  have hnone : (before.filterMap fun c => (Directive.args? directive c.text).map fun args =>
      (⟨c, args⟩ : DirectiveComment)) = [] := by
    refine List.filterMap_eq_nil_iff.mpr fun c hc => ?_
    simpa using hbefore c hc
  rw [hlist, List.filterMap_append, hnone, List.nil_append, List.filterMap_cons, hargs]
  rfl

/-- So they are one group of directives, which belongs to the function. -/
theorem exists_group {src : Bytes} {tokens : List Token} {f : File}
    (h : Asks directive d g first results) (hf : FilePlaced src tokens f)
    (hled : AllLed tokens f.nodes) (hd : d ∈ f.funcs) {args : List Bytes}
    (hargs : Directive.args? directive first.text = some args) :
    ∃ more, ⟨some (.func d), ⟨first, args⟩, more⟩ ∈ DirectiveGroup.ofFile directive f := by
  obtain ⟨more, hmore⟩ := h.exists_more hargs
  refine ⟨more, List.mem_flatMap.mpr ⟨g, (hf.doc_before hd h.doc).1, ?_⟩⟩
  rw [DirectiveGroup.ofComments, hmore, Owner.find?_doc hf hled hd h.doc]
  exact List.mem_singleton_self _

end Syntax.FuncDecl.Asks

/-- Where none of the rules for a directive is broken, a loop is built. -/
theorem RetryLoop.exists_build {defaults : Defaults} (directive : Directive) {owner : Owner}
    (place : Position) (contextName : Option Bytes) (names : NameSupply) {signature : Signature}
    {n : Int} {results : FieldList} {body : Block}
    (hbudget : Directive.budget directive.args defaults.retries = .ok n)
    (howner : Signature.ofOwner? owner = some signature)
    (hresults : signature.fallible? = some results) (hbody : signature.body = some body) :
    ∃ l, build defaults directive (some owner) place contextName names = .ok l ∧
      Built defaults directive (some owner) contextName names signature l := by
  have hbuild : ∃ l, build defaults directive (some owner) place contextName names = .ok l := by
    simp only [build, hbudget, Option.bind_some, howner, hresults, hbody]
    exact ⟨_, rfl⟩
  obtain ⟨l, hl⟩ := hbuild
  obtain ⟨signature', hbuilt⟩ := built_of_build hl
  obtain rfl : signature' = signature := Option.some.inj (hbuilt.owner.symm.trans howner)
  exact ⟨l, hl, hbuilt⟩

namespace Plan

variable {o : Options} {name src : Bytes} {p : Plan} {d : FuncDecl} {g : CommentGroup}
  {first : Comment} {results : FieldList}

/-- What a plan makes of a function: it is expanded once, and nothing is reported from its first
directive up to its start, where a fault of the directive or of the function would be reported. -/
structure Expands (p : Plan) (d : FuncDecl) (first : Comment) (e : Expansion) : Prop where
  mem : e ∈ p.expansions
  decl : e.decl = d
  unique : ∀ e' ∈ p.expansions, e'.decl = d → e' = e
  silent : ∀ x ∈ p.diagnostics, ∀ start, d.start = some start →
    x.position.offset < first.start ∨ start < x.position.offset

/-- The ruling on a function that asks for an expansion with a good budget. -/
theorem exists_rule_eq (name : Bytes) (f : File) (more : List DirectiveComment) {args : List Bytes}
    {n : Int} (h : d.Asks o.directive g first results)
    (hbudget : Directive.budget args o.defaults.retries = .ok n) :
    ∃ e, rule o name f f.idents ⟨some (.func d), ⟨first, args⟩, more⟩ = .accepted e ∧ e.decl = d ∧
      RetryLoop.Built o.defaults ⟨args, f.table.position first.start⟩ (some (.func d))
        f.contextName? (o.names name (Owner.func d).name f.idents)
        ⟨d.name.name, d.type, d.body⟩ e.loop := by
  obtain ⟨body, hbody⟩ := Option.isSome_iff_exists.mp h.body
  have howner : Signature.ofOwner? (.func d) = some ⟨d.name.name, d.type, d.body⟩ := rfl
  have hbuild : ∃ l, attempt o name f ⟨first, args⟩ (some (.func d)) = .ok l ∧
      RetryLoop.Built o.defaults ⟨args, f.table.position first.start⟩ (some (.func d))
        f.contextName? (o.names name (Owner.func d).name f.idents)
        ⟨d.name.name, d.type, d.body⟩ l :=
    RetryLoop.exists_build _ _ _ _ hbudget howner h.fallible?_eq hbody
  obtain ⟨l, hattempt, hbuilt⟩ := hbuild
  exact ⟨_, by rw [rule_eq, hattempt], rfl, hbuilt⟩

/-- Diagnostics about other directives stand before the first directive of a group, or after the
start of the function that it documents. -/
theorem outside_of_mem_diagnostics (hp : ofSource? o name src = some p) {dg : DirectiveGroup}
    (hdg : dg ∈ DirectiveGroup.ofFile o.directive p.file) (howner : dg.owner = some (.func d))
    {e : Expansion} (hrule : rule o name p.file p.file.idents dg = .accepted e) {start : Nat}
    (hstart : d.start = some start) {x : Diagnostic} (hx : x ∈ p.diagnostics) :
    x.position.offset < dg.first.comment.start ∨ start < x.position.offset := by
  obtain ⟨hparse, hrulings⟩ := ofSource?_eq_some hp
  obtain ⟨l, -, hf, hled⟩ := exists_documented hparse
  obtain ⟨infos, htable⟩ := exists_table_eq hparse
  have hsize : p.file.table.size = src.length := by rw [htable]; rfl
  rw [diagnostics, hrulings, List.filterMap_map] at hx
  obtain ⟨dg', hdg', hx⟩ := List.mem_filterMap.mp hx
  have hne : dg ≠ dg' := by
    rintro rfl
    rw [Function.comp_apply, hrule] at hx
    cases hx
  obtain ⟨n, hn, hposition⟩ := exists_site hf hled hdg' hx
  obtain ⟨g, hg, hmem⟩ := List.mem_flatMap.mp hdg'
  have hbounds := hn.bounds hf hled hg hmem
  have hsite : dg.Site start := .inr ⟨.func d, _, howner, rfl, hstart⟩
  have : Std.Symm fun a b : DirectiveGroup => (∀ n, a.Site n → n < b.first.comment.start) ∨
      ∀ n, b.Site n → n < a.first.comment.start := ⟨fun _ _ => Or.symm⟩
  have heither : (DirectiveGroup.ofFile o.directive p.file).Pairwise fun a b =>
      (∀ n, a.Site n → n < b.first.comment.start) ∨ ∀ n, b.Site n → n < a.first.comment.start :=
    (DirectiveGroup.pairwise_site hf hled o.directive).imp Or.inl
  rw [hposition, LineTable.position_offset, hsize]
  rcases heither.forall hdg hdg' hne with hbefore | hafter
  · have hlt := hbefore start hsite
    omega
  · have hlt := hafter n hn
    omega

theorem exists_expands (hp : ofSource? o name src = some p) (hd : d ∈ p.file.funcs)
    (h : d.Asks o.directive g first results) {args : List Bytes} {n : Int}
    (hargs : Directive.args? o.directive first.text = some args)
    (hbudget : Directive.budget args o.defaults.retries = .ok n) :
    ∃ e, p.Expands d first e ∧ e.loop.retries = n ∧
      e.loop.names = ((o.names name (Owner.func d).name p.file.idents).freshAll
        (RetryLoop.bases (Signature.resultCount results - 1))).1 ∧
      ∀ name ∈ e.loop.names, RetryLoop.HasShape o.stem name := by
  obtain ⟨hparse, hrulings⟩ := ofSource?_eq_some hp
  obtain ⟨l, -, hf, hled⟩ := exists_documented hparse
  obtain ⟨more, hgroup⟩ := h.exists_group hf hled hd hargs
  obtain ⟨e, hrule, hdecl, hbuilt⟩ :=
    exists_rule_eq name p.file more h hbudget
  have hmem : e ∈ p.expansions := by
    rw [expansions, hrulings, List.filterMap_map]
    exact List.mem_filterMap.mpr ⟨_, hgroup, by rw [Function.comp_apply, hrule]; rfl⟩
  have : Std.Symm fun e e' : Expansion => e.decl ≠ e'.decl := ⟨fun _ _ => Ne.symm⟩
  have hapart : p.expansions.Pairwise fun e e' => e.decl ≠ e'.decl :=
    (pairwise_expansions hp hf).imp And.right
  have hunique : ∀ e' ∈ p.expansions, e'.decl = d → e' = e := fun e' he' hdecl' => by
    by_contra hne
    exact hapart.forall he' hmem hne (hdecl'.trans hdecl.symm)
  have hretries := hbuilt.budget
  have hnames := hbuilt.names_eq
  obtain rfl : e.loop.results = results :=
    Option.some.inj (hbuilt.results.symm.trans h.fallible?_eq)
  exact ⟨e, ⟨hmem, hdecl, hunique, fun x hx start hstart =>
      outside_of_mem_diagnostics hp hgroup rfl hrule hstart hx⟩,
    Except.ok.inj (hretries.symm.trans hbudget), hnames, fun name hname => hbuilt.hasShape hname⟩

end Plan

/-! ## From the checks to the names -/

namespace Config

/-- The names that a configuration gives to a declaration of a file: in the style that it chooses, and
after its stem, or after the default one where it has none. -/
def supply (c : Config) (file declaration : Bytes) (reserved : List Bytes) : NameSupply where
  style := if c.settings.naming = Naming.hashed.word then
      .hashed (Path.base file ++ ":" ++ declaration)
    else .sequential
  stem := if c.settings.stem = [] then Options.defaultStem else c.settings.stem
  taken := reserved

/-- What a configuration means for a function that asks for an expansion: the function is expanded
once, with the default budget and the names of the configuration, and nothing is reported about it. -/
structure Serves (c : Config) (name : Bytes) (p : Plan) (d : FuncDecl) (first : Comment)
    (results : FieldList) (e : Expansion) : Prop where
  expands : p.Expands d first e
  retries : e.loop.retries = c.settings.defaultRetries
  names : e.loop.names = ((c.supply name (Owner.func d).name p.file.idents).freshAll
    (RetryLoop.bases (Signature.resultCount results - 1))).1
  stem_le : ∀ introduced ∈ e.loop.names, c.settings.stem <+: introduced

variable {c : Config} {s : Settings}

theorem settingsFault?_eq_none (h : settingsFault? s = none) :
    s.directive ≠ [] ∧ 0 < s.defaultRetries ∧ NameSupply.isStem s.stem = true ∧
      ∃ naming, Naming.ofWord? s.naming = some naming := by
  unfold settingsFault? at h
  split_ifs at h with hdirective hslashes hblank hretries hstem hnaming
  refine ⟨by simpa using hdirective, Int.not_le.mp hretries, by simpa using hstem, ?_⟩
  exact Option.ne_none_iff_exists'.mp fun hnone => hnaming (by rw [hnone]; rfl)

theorem settingsFault?_of_validate (h : c.validate = .ok ()) : settingsFault? c.settings = none := by
  unfold validate fault? at h
  cases hfault : settingsFault? c.settings with
  | none => rfl
  | some f =>
      rw [hfault] at h
      cases h

theorem word_of_ofWord? {word : Bytes} {naming : Naming} (h : Naming.ofWord? word = some naming) :
    naming.word = word := by
  have hfound := List.find?_some h
  exact eq_of_beq hfound

/-- Settings that pass the checks are taken over; only an empty stem and an empty message are left to
the defaults. -/
theorem ofSettings_of_validate (h : c.validate = .ok ()) :
    ∃ naming, Naming.word naming = c.settings.naming ∧ Options.ofSettings c.settings =
      .ok ⟨c.settings.directive, Options.orDefault c.settings.stem Options.defaultStem, naming,
        ⟨c.settings.defaultRetries,
          Options.orDefault c.settings.message Options.defaultMessage⟩⟩ := by
  obtain ⟨hdirective, hretries, hstem, naming, hnaming⟩ :=
    settingsFault?_eq_none (settingsFault?_of_validate h)
  have hword := word_of_ofWord? hnaming
  have hnonempty : c.settings.naming ≠ [] := by
    rw [← hword]
    cases naming <;> decide
  have hkept : ∀ {text : Bytes} (default : Bytes), text ≠ [] → Options.orDefault text default = text :=
    fun default hne => if_neg (by simpa using hne)
  have hstemmed : NameSupply.isStem (Options.orDefault c.settings.stem Options.defaultStem) = true := by
    by_cases hempty : c.settings.stem = []
    · rw [hempty]
      rfl
    · rwa [hkept _ hempty]
  refine ⟨naming, hword, ?_⟩
  simp only [Options.ofSettings, Options.loopDefaults, hkept _ hnonempty, hkept _ hdirective, hnaming,
    hstemmed, Bool.not_true, Bool.false_eq_true, if_false, if_neg hretries.not_gt,
    if_neg hretries.ne']

/-- The names that the options give out are those of the configuration. -/
theorem names_eq_supply {naming : Naming} (hword : naming.word = c.settings.naming)
    (defaults : RetryLoop.Defaults) (file declaration : Bytes) (reserved : List Bytes) :
    Options.names ⟨c.settings.directive, Options.orDefault c.settings.stem Options.defaultStem, naming,
      defaults⟩ file declaration reserved = c.supply file declaration reserved := by
  have hne : Naming.sequential.word ≠ Naming.hashed.word := by decide
  rw [Options.names, supply, ← hword, Options.orDefault]
  cases naming <;> simp [hne]

/-- With a configuration that passes its checks, every function that asks for an expansion by a bare
directive is expanded as the configuration says. -/
theorem serves_of_validate (h : c.validate = .ok ()) :
    ∃ o, Options.ofSettings c.settings = .ok o ∧
      ∀ name src p, Plan.ofSource? o name src = some p →
        ∀ d ∈ p.file.funcs, ∀ g first results, d.Asks c.settings.directive g first results →
          Directive.args? c.settings.directive first.text = some [] →
          ∃ e, c.Serves name p d first results e := by
  obtain ⟨naming, hword, hoptions⟩ := ofSettings_of_validate h
  obtain ⟨-, hretries, -⟩ := settingsFault?_eq_none (settingsFault?_of_validate h)
  refine ⟨_, hoptions, fun name src p hp d hd g first results hasks hbare => ?_⟩
  have hbudget : Directive.budget [] c.settings.defaultRetries = .ok c.settings.defaultRetries :=
    if_neg hretries.not_ge
  obtain ⟨e, hexpands, hcount, hnames, hshape⟩ := Plan.exists_expands hp hd hasks hbare hbudget
  rw [names_eq_supply hword] at hnames
  refine ⟨e, hexpands, hcount, hnames, fun introduced hmem => ?_⟩
  obtain ⟨letter, core, tail, rfl, -⟩ := hshape introduced hmem
  by_cases hempty : c.settings.stem = []
  · rw [hempty]
    exact List.nil_prefix
  · rw [Options.orDefault, if_neg (by simpa using hempty)]
    exact List.prefix_append _ _

/-- Another directive, another budget, a stem and hashed names. -/
def choosy : Config := ⟨⟨"again", 5, "my", "hashed", []⟩, ["*.pb.go"], 2⟩

/-- A function with a bare directive, and another one that asks for seven attempts. -/
def choosySource : Bytes :=
  "package p\n\n// f tries.\n//again\n//again 7\nfunc f() (int, error) \x7b return 0, nil \x7d\n"

/-- The name of a field's type, if that is a name. -/
def typeName (f : Field) : Bytes :=
  match f.type with
  | .ident id => id.name
  | _ => []

theorem serves_of_validate_choosy : ∃ o p d first results e,
    Options.ofSettings choosy.settings = .ok o ∧ Plan.ofSource? o "a.go" choosySource = some p ∧
      choosy.Serves "a.go" p d first results e := by
  obtain ⟨o, ho, hserves⟩ := serves_of_validate (c := choosy) rfl
  have hoptions : Options.ofSettings choosy.settings =
      .ok ⟨"again", "my", .hashed, ⟨5, Options.defaultMessage⟩⟩ := rfl
  obtain rfl := Except.ok.inj (hoptions.symm.trans ho)
  have heval : (Plan.ofSource? ⟨"again", "my", .hashed, ⟨5, Options.defaultMessage⟩⟩ "a.go"
      choosySource).map (fun p => p.file.funcs.map fun d => (d.doc.map (·.list), d.body.isSome,
        d.type.results.bind fun results => results.list.getLast?.map typeName)) =
      some [(some [⟨11, "// f tries."⟩, ⟨23, "//again"⟩, ⟨31, "//again 7"⟩], true,
        some (Bytes.ofString "error"))] := by decide +kernel
  obtain ⟨p, hp, hview⟩ := Option.map_eq_some_iff.mp heval
  obtain ⟨d, hfuncs, hview⟩ := List.map_eq_singleton_iff.mp hview
  simp only [Prod.mk.injEq] at hview
  obtain ⟨hdoc, hbody, hview⟩ := hview
  obtain ⟨g, hdoc, hlist⟩ := Option.map_eq_some_iff.mp hdoc
  obtain ⟨results, hresults, hview⟩ := Option.bind_eq_some_iff.mp hview
  obtain ⟨f, hlast, hname⟩ := Option.map_eq_some_iff.mp hview
  have herror : ∃ f id, results.list.getLast? = some f ∧ f.type = .ident id ∧
      id.name = Bytes.ofString "error" := by
    unfold typeName at hname
    split at hname
    · exact ⟨f, _, hlast, ‹_›, hname⟩
    · exact absurd hname (by decide)
  have hfirst : g.list.find? (fun c => (Directive.args? (Bytes.ofString "again") c.text).isSome) =
      some ⟨23, "//again"⟩ := by
    rw [hlist]
    decide
  obtain ⟨e, he⟩ := hserves "a.go" choosySource p hp d (by rw [hfuncs]; exact List.mem_singleton_self d)
    g ⟨23, "//again"⟩ results ⟨hdoc, hfirst, hresults, herror, hbody⟩ (by decide)
  exact ⟨_, p, d, _, results, e, ho, hp, he⟩

end Config

end RetryWeave
