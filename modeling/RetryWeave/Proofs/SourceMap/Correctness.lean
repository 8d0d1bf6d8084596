import RetryWeave.Proofs.Expansion.Stages
import RetryWeave.Proofs.SourceMap.Lines

/-! # The map of an expanded file

An entry names physical lines, in the source and in the output, unless a line comment moves them.
When none does, the map is right: a line of the output resolves to the expanded function that it
belongs to. -/

namespace RetryWeave

open Syntax

/-! ## Entries and expansions in step -/

theorem exists_mem_right {α β : Type} {R : α → β → Prop} {l : List α} {m : List β}
    (h : List.Forall₂ R l m) {a : α} (ha : a ∈ l) : ∃ b ∈ m, R a b := by
  induction h with
  | nil => cases ha
  | cons hab _ ih =>
      rcases List.mem_cons.mp ha with rfl | ha
      · exact ⟨_, List.mem_cons_self, hab⟩
      · obtain ⟨b, hb, hab⟩ := ih ha
        exact ⟨b, List.mem_cons_of_mem _ hb, hab⟩

theorem exists_mem_left {α β : Type} {R : α → β → Prop} {l : List α} {m : List β}
    (h : List.Forall₂ R l m) {b : β} (hb : b ∈ m) : ∃ a ∈ l, R a b :=
  exists_mem_right h.flip hb

theorem pairwise_iff_of_forall₂ {α β : Type} {R : α → β → Prop} {I S : α → α → Prop}
    {T : β → β → Prop} {l : List α} {m : List β} (h : List.Forall₂ R l m) (hI : l.Pairwise I)
    (hST : ∀ a a' b b', I a a' → R a b → R a' b' → (S a a' ↔ T b b')) :
    l.Pairwise S ↔ m.Pairwise T := by
  induction h with
  | nil => simp
  | @cons a b l m hab hlm ih =>
      obtain ⟨ha, hI⟩ := List.pairwise_cons.mp hI
      rw [List.pairwise_cons, List.pairwise_cons, ih hI]
      refine and_congr_left fun _ => ⟨fun hall b' hb' => ?_, fun hall a' ha' => ?_⟩
      · obtain ⟨a', ha', hab'⟩ := exists_mem_left hlm hb'
        exact (hST a a' b b' (ha a' ha') hab hab').mp (hall a' ha')
      · obtain ⟨b', hb', hab'⟩ := exists_mem_right hlm ha'
        exact (hST a a' b b' (ha a' ha') hab hab').mpr (hall b' hb')

/-! ## Resolving a line -/

/-- The lines of one entry are over before those of another begin. -/
def MapEntry.Above (m m' : MapEntry) : Prop := m.last < m'.first

theorem SourceMap.covers_of_resolve? {map : SourceMap} {line : Int} {m : MapEntry}
    (h : map.resolve? line = some m) : m ∈ map ∧ m.covers line = true :=
  ⟨List.mem_of_find?_eq_some h, List.find?_some (p := fun m : MapEntry => m.covers line) h⟩

/-- When entries do not share lines, the first entry that covers a line is the only one. -/
theorem SourceMap.resolve?_eq_some_iff {map : SourceMap} (h : map.Pairwise MapEntry.Above)
    {line : Int} {m : MapEntry} : map.resolve? line = some m ↔ m ∈ map ∧ m.covers line = true := by
  refine ⟨covers_of_resolve?, ?_⟩
  rintro ⟨hm, hcovers⟩
  cases hfind : map.resolve? line with
  | none => exact absurd hcovers (List.find?_eq_none.mp hfind m hm)
  | some m' =>
      obtain ⟨hm', hcovers'⟩ := covers_of_resolve? hfind
      simp only [MapEntry.covers, Bool.and_eq_true, decide_eq_true_eq] at hcovers hcovers'
      by_contra hne
      -- of two different entries one is over before the other begins
      have : Std.Symm fun m m' : MapEntry => m.Above m' ∨ m'.Above m := ⟨fun _ _ => Or.symm⟩
      have heither : map.Pairwise fun m m' => m.Above m' ∨ m'.Above m := h.imp Or.inl
      have hapart := heither.forall hm hm' fun heq => hne (by rw [heq])
      unfold MapEntry.Above at hapart
      omega

/-! ## What a map should say -/

/-- The function that an expansion became stands in the output from `start` to its closing brace
`rb`: it has the same place among the functions, and the same name. -/
def Expansion.Became (output : Bytes) (f : File) (e : Expansion) (start rb : Nat) : Prop :=
  ∃ d lb, f.funcs[e.index]? = some d ∧ (Owner.func d).name = e.name ∧ d.Stands output start lb rb

/-- An entry gives the physical lines of the function that an expansion became, and where it came
from. -/
def MapEntry.Right (name src output : Bytes) (f : File) (e : Expansion) (m : MapEntry) : Prop :=
  ∃ keyword start rb, e.decl.start = some keyword ∧ e.Became output f start rb ∧
    m = ⟨lineNumber output start, lineNumber output rb, name, lineNumber src keyword, e.name,
      e.loop.retries⟩

structure SourceMap.Correct (name src output : Bytes) (p : Plan) (f : File) (map : SourceMap) :
    Prop where
  /-- An expanded function is found in the output by its place in the source. -/
  places : ∀ e ∈ p.expansions, p.file.funcs[e.index]? = some e.decl
  /-- The expanded functions stand in the order of the source. -/
  source_order : p.expansions.Pairwise fun e e' => ∀ keyword keyword',
    e.decl.start = some keyword → e'.decl.start = some keyword' → keyword < keyword'
  /-- There is one entry for each, in this order. -/
  entries : List.Forall₂ (fun e m => m.Right name src output f e) p.expansions map
  above : map.Pairwise MapEntry.Above
  /-- A line resolves if and only if it belongs to such a function, and then to its entry. -/
  resolves : ∀ (line : Nat) m, map.resolve? line = some m ↔ ∃ e ∈ p.expansions,
    m.Right name src output f e ∧ ∃ start rb, e.Became output f start rb ∧
      lineNumber output start ≤ line ∧ line ≤ lineNumber output rb

/-! ## What it takes -/

/-- An expansion is found in the output, and no line comment moves its lines. -/
def Expansion.Unmoved (output : Bytes) (table : LineTable) (f : File) (e : Expansion) : Prop :=
  ∃ keyword start rb, e.decl.start = some keyword ∧ e.Became output f start rb ∧
    table.Straight keyword ∧ f.table.Straight start ∧ f.table.Straight (rb + 1)

/-- A newline stands between the functions that two expansions became. -/
def Expansion.LineBetween (output : Bytes) (f : File) (e e' : Expansion) : Prop :=
  ∀ start rb start' rb', e.Became output f start rb → e'.Became output f start' rb' →
    Ascii.newline ∈ Bytes.slice output rb start'

namespace Expansion

variable {output : Bytes} {f : File} {e e' : Expansion} {start rb : Nat}

theorem Became.unique (h : e.Became output f start rb) {start' rb' : Nat}
    (h' : e.Became output f start' rb') : start = start' ∧ rb = rb' := by
  obtain ⟨d, lb, hd, -, hstands⟩ := h
  obtain ⟨d', lb', hd', -, hstands'⟩ := h'
  obtain rfl : d = d' := Option.some.inj (hd.symm.trans hd')
  exact ⟨Option.some.inj (hstands.start_eq.symm.trans hstands'.start_eq),
    Option.some.inj (hstands.rbrace_eq.symm.trans hstands'.rbrace_eq)⟩

theorem right_unique {name src : Bytes} {m m' : MapEntry} (h : m.Right name src output f e)
    (h' : m'.Right name src output f e) : m = m' := by
  obtain ⟨keyword, start, rb, hkeyword, hbecame, rfl⟩ := h
  obtain ⟨keyword', start', rb', hkeyword', hbecame', rfl⟩ := h'
  obtain ⟨rfl, rfl⟩ := hbecame.unique hbecame'
  obtain rfl : keyword = keyword' := Option.some.inj (hkeyword.symm.trans hkeyword')
  rfl

/-- An expansion knows the place of its function among those of the source. -/
theorem Accepted.getElem?_index {src : Bytes} {tokens : List Token} {o : Options}
    {g : CommentGroup} (hf : FilePlaced src tokens f) (h : e.Accepted o f g) :
    f.funcs[e.index]? = some e.decl := by
  obtain ⟨i, hi, hdecl⟩ := List.mem_iff_getElem.mp h.decl_mem
  have hindex : e.index = i := by
    rw [h.index_eq, List.findIdx_eq hi]
    refine ⟨by simp [hdecl], fun j hj => ?_⟩
    -- an earlier function starts earlier
    have hbefore := List.pairwise_iff_getElem.mp hf.ordered j i (by omega) hi hj
    obtain ⟨m, hm, -⟩ := hf.marked _ (List.getElem_mem (show j < f.funcs.length by omega))
    obtain ⟨m', hm', -⟩ := hf.marked _ (List.getElem_mem hi)
    have hlt := hf.start_lt_start hbefore hm.start hm'.start
    rw [← hdecl, hm.start, hm'.start]
    simpa using Nat.ne_of_lt hlt
  rw [hindex, List.getElem?_eq_getElem hi, hdecl]

/-- What stands first in the source comes first among the functions. -/
theorem Accepted.index_lt {src : Bytes} {tokens : List Token} {o : Options} {g g' : CommentGroup}
    (hf : FilePlaced src tokens f) (h : e.Accepted o f g) (h' : e'.Accepted o f g')
    (hbefore : FuncDecl.Before tokens e.decl e'.decl) : e.index < e'.index := by
  obtain ⟨hi, hdecl⟩ := List.getElem?_eq_some_iff.mp (h.getElem?_index hf)
  obtain ⟨hi', hdecl'⟩ := List.getElem?_eq_some_iff.mp (h'.getElem?_index hf)
  obtain ⟨start, lb, rb, hstands⟩ := hf.exists_stands h.decl_mem h.body
  obtain ⟨start', lb', rb', hstands'⟩ := hf.exists_stands h'.decl_mem h'.body
  have hlt := hf.start_lt_start hbefore hstands.start_eq hstands'.start_eq
  rcases Nat.lt_trichotomy e.index e'.index with hindex | hindex | hindex
  · exact hindex
  · have hsame : e.decl = e'.decl := by simp only [← hdecl, ← hdecl', hindex]
    have hstart := hstands.start_eq.symm.trans (hsame ▸ hstands'.start_eq)
    exact absurd (Option.some.inj hstart) hlt.ne
  · have hafter := List.pairwise_iff_getElem.mp hf.ordered _ _ hi' hi hindex
    rw [hdecl, hdecl'] at hafter
    exact absurd (hf.start_lt_start hafter hstands'.start_eq hstands.start_eq) hlt.asymm

/-- The functions of the output stand in the order of the source. -/
theorem Became.lt {tokens : List Token} (hf : FilePlaced output tokens f)
    (hindex : e.index < e'.index) (h : e.Became output f start rb) {start' rb' : Nat}
    (h' : e'.Became output f start' rb') : rb < start' := by
  obtain ⟨d, lb, hd, -, hstands⟩ := h
  obtain ⟨d', lb', hd', -, hstands'⟩ := h'
  obtain ⟨hi, rfl⟩ := List.getElem?_eq_some_iff.mp hd
  obtain ⟨hi', rfl⟩ := List.getElem?_eq_some_iff.mp hd'
  have hbefore := List.pairwise_iff_getElem.mp hf.ordered _ _ hi hi' hindex
  exact (hf.stands_before hbefore hstands hstands'.start_eq).1

theorem lineBetween_iff {tokens : List Token} (hf : FilePlaced output tokens f)
    (hindex : e.index < e'.index) {name src : Bytes} {m m' : MapEntry}
    (h : m.Right name src output f e) (h' : m'.Right name src output f e') :
    e.LineBetween output f e' ↔ m.Above m' := by
  obtain ⟨_, start, rb, -, hbecame, rfl⟩ := h
  obtain ⟨_, start', rb', -, hbecame', rfl⟩ := h'
  simp only [MapEntry.Above, Nat.cast_lt]
  rw [lineNumber_lt_iff output (hbecame.lt hf hindex hbecame').le]
  constructor
  · exact fun hbetween => hbetween _ _ _ _ hbecame hbecame'
  · intro hmem _ _ _ _ hother hother'
    obtain ⟨rfl, rfl⟩ := hbecame.unique hother
    obtain ⟨rfl, rfl⟩ := hbecame'.unique hother'
    exact hmem

end Expansion

namespace Syntax

theorem exists_table_eq {name src : Bytes} {f : File} (h : parseFile? name src = some f) :
    ∃ infos, f.table = .ofText name src infos := by
  obtain ⟨l, hl, -, htable, -⟩ := parseFile?_eq_some h
  obtain ⟨-, -, infos, -, -, -, hinfos, -⟩ := exists_lexemes_of_lex? hl
  exact ⟨infos, htable.trans hinfos⟩

namespace FuncDecl.Stands

variable {name src : Bytes} {f : File} {d : FuncDecl} {start lb rb : Nat}

theorem rbrace_lt (h : d.Stands src start lb rb) : rb < src.length :=
  (List.getElem?_eq_some_iff.mp h.rbrace).1

theorem stop_eq (h : d.Stands src start lb rb) : d.stop = some (rb + 1) := by
  obtain ⟨b, hb, hrbrace⟩ := Option.bind_eq_some_iff.mp h.rbrace_eq
  simp [FuncDecl.stop, hb, hrbrace, Pos.plus]

/-- A function starts on its physical line, unless a line comment moves it. -/
theorem start_line_iff (hf : parseFile? name src = some f) (h : d.Stands src start lb rb) :
    (f.table.position start).line = lineNumber src start ↔ f.table.Straight start := by
  obtain ⟨infos, htable⟩ := exists_table_eq hf
  have hrb := h.rbrace_lt
  have hle := h.keyword_le
  have hlt := h.lt
  rw [htable]
  exact LineTable.position_line_eq_iff (by omega) (.inl (by omega))

/-- So it does stop. -/
theorem stop_line_iff (hf : parseFile? name src = some f) (h : d.Stands src start lb rb) :
    (f.table.position (rb + 1)).line = lineNumber src rb ↔ f.table.Straight (rb + 1) := by
  obtain ⟨infos, htable⟩ := exists_table_eq hf
  have hrb := h.rbrace_lt
  rw [htable, ← lineNumber_succ h.rbrace (by decide)]
  refine LineTable.position_line_eq_iff hrb ?_
  -- what ends with a brace does not end with a newline
  rcases Nat.lt_or_eq_of_le (Nat.succ_le_of_lt hrb) with hlt | heq
  · exact .inl hlt
  · refine .inr fun hlast => ?_
    rw [List.getLast?_eq_getElem?, ← heq, Nat.succ_sub_one, h.rbrace] at hlast
    cases hlast

end FuncDecl.Stands

end Syntax

/-- An entry is right if and only if no line comment moves its lines. -/
theorem right_mapEntry_iff {o : Options} {name src output : Bytes} {p : Plan} {f : File}
    {e : Expansion} {g : CommentGroup} {d : FuncDecl} (hsource : parseFile? name src = some p.file)
    (houtput : parseFile? name output = some f) (he : e.Accepted o p.file g)
    (hd : f.funcs[e.index]? = some d) :
    (mapEntry name f.table d e).Right name src output f e ↔
      e.Unmoved output p.file.table f := by
  obtain ⟨l, -, hplaced⟩ := exists_filePlaced hsource
  obtain ⟨keyword, lb₀, rb₀, horigin⟩ := hplaced.exists_stands he.decl_mem he.body
  have hline := horigin.start_line_iff hsource
  have hposition := he.position_eq keyword horigin.start_eq
  refine exists_congr fun keyword' => exists_congr fun start => exists_congr fun rb =>
    and_congr_right fun hkeyword => and_congr_right fun hbecame => ?_
  obtain rfl : keyword = keyword' := Option.some.inj (horigin.start_eq.symm.trans hkeyword)
  obtain ⟨d', lb, hd', -, hstands⟩ := hbecame
  obtain rfl : d = d' := Option.some.inj (hd.symm.trans hd')
  rw [← hline, ← hstands.start_line_iff houtput, ← hstands.stop_line_iff houtput]
  simp only [mapEntry, hstands.start_eq, hstands.stop_eq, Option.getD_some, hposition,
    MapEntry.mk.injEq, true_and, and_true]
  tauto

/-- A line resolves to the right entry of an expanded function that it belongs to. -/
theorem resolves_iff {name src output : Bytes} {f : File} {es : List Expansion} {map : SourceMap}
    (hentries : List.Forall₂ (fun e m => m.Right name src output f e) es map)
    (habove : map.Pairwise MapEntry.Above) (line : Nat) (m : MapEntry) :
    map.resolve? line = some m ↔ ∃ e ∈ es, m.Right name src output f e ∧
      ∃ start rb, e.Became output f start rb ∧ lineNumber output start ≤ line ∧
        line ≤ lineNumber output rb := by
  rw [SourceMap.resolve?_eq_some_iff habove]
  constructor
  · rintro ⟨hm, hcovers⟩
    obtain ⟨e, he, hright⟩ := exists_mem_left hentries hm
    obtain ⟨keyword, start, rb, -, hbecame, rfl⟩ := id hright
    simp only [MapEntry.covers, Bool.and_eq_true, decide_eq_true_eq, Nat.cast_le] at hcovers
    exact ⟨e, he, hright, start, rb, hbecame, hcovers⟩
  · rintro ⟨e, he, hright, start, rb, hbecame, hfirst, hlast⟩
    obtain ⟨m', hm', hright'⟩ := exists_mem_right hentries he
    obtain rfl := Expansion.right_unique hright hright'
    obtain ⟨_, start', rb', -, hbecame', rfl⟩ := hright
    obtain ⟨rfl, rfl⟩ := hbecame.unique hbecame'
    simp only [MapEntry.covers, Bool.and_eq_true, decide_eq_true_eq, Nat.cast_le]
    exact ⟨hm', hfirst, hlast⟩

section

variable {o : Options} {name src : Bytes} {p : Plan} {f : File} {x : Expanded}

/-- All entries are right if and only if no line comment moves the lines of any of them. -/
theorem Expanded.From.entries_iff (h : x.From o name src p f) :
    List.Forall₂ (fun e m => m.Right name src x.output f e) p.expansions x.map ↔
      ∀ e ∈ p.expansions, e.Unmoved x.output p.file.table f := by
  obtain ⟨hsource, -⟩ := Plan.ofSource?_eq_some h.plan
  obtain ⟨l, -, hplaced⟩ := exists_filePlaced hsource
  obtain ⟨haccepted, -⟩ := Plan.expansions_spec h.plan hplaced
  have hmap := mapEntries_eq_ok.mp h.map
  constructor
  · intro hentries e he
    obtain ⟨m, -, hright, d, hd, rfl⟩ := exists_mem_right
      (hentries.mp (fun _ _ hright hentry => And.intro hright hentry) hmap) he
    obtain ⟨g, hg⟩ := haccepted e he
    exact (right_mapEntry_iff hsource h.file hg hd).mp hright
  · refine fun hunmoved => List.forall₂_iff_zip.mpr ⟨hmap.length_eq, fun hzip => ?_⟩
    obtain ⟨he, -⟩ := List.of_mem_zip hzip
    obtain ⟨d, hd, rfl⟩ := List.forall₂_zip hmap hzip
    obtain ⟨g, hg⟩ := haccepted _ he
    exact (right_mapEntry_iff hsource h.file hg hd).mpr (hunmoved _ he)

/-- Right entries do not share lines if and only if newlines stand between their functions. -/
theorem Expanded.From.above_iff (h : x.From o name src p f)
    (hentries : List.Forall₂ (fun e m => m.Right name src x.output f e) p.expansions x.map) :
    p.expansions.Pairwise (Expansion.LineBetween x.output f) ↔ x.map.Pairwise MapEntry.Above := by
  obtain ⟨l, -, hplaced⟩ := exists_filePlaced (Plan.ofSource?_eq_some h.plan).1
  obtain ⟨haccepted, hbefore⟩ := Plan.expansions_spec h.plan hplaced
  obtain ⟨l', -, hplaced'⟩ := exists_filePlaced h.file
  have hindex : p.expansions.Pairwise fun e e' => e.index < e'.index :=
    hbefore.imp_of_mem fun he he' hlt => by
      obtain ⟨g, hg⟩ := haccepted _ he
      obtain ⟨g', hg'⟩ := haccepted _ he'
      exact hg.index_lt hplaced hg' hlt.decl
  exact pairwise_iff_of_forall₂ hentries hindex fun _ _ _ _ hlt =>
    Expansion.lineBetween_iff hplaced' hlt

/-- The map of an expansion is right if and only if the expanded functions are found in the output,
with newlines between them, and no line comment moves their lines there or in the source. -/
theorem map_correct_iff (h : expandText o name src = .ok x) :
    ∃ p f, Plan.ofSource? o name src = some p ∧ parseFile? name x.output = some f ∧
      x.count = p.expansions.length ∧
      (x.map.Correct name src x.output p f ↔
        (∀ e ∈ p.expansions, e.Unmoved x.output p.file.table f) ∧
          p.expansions.Pairwise (Expansion.LineBetween x.output f)) := by
  obtain ⟨p, f, hfrom⟩ := exists_from h
  refine ⟨p, f, hfrom.plan, hfrom.file, hfrom.count, ?_, ?_⟩
  · exact fun hcorrect => ⟨hfrom.entries_iff.mp hcorrect.entries,
      (hfrom.above_iff hcorrect.entries).mpr hcorrect.above⟩
  · rintro ⟨hunmoved, hbetween⟩
    obtain ⟨l, -, hplaced⟩ := exists_filePlaced (Plan.ofSource?_eq_some hfrom.plan).1
    obtain ⟨haccepted, hbefore⟩ := Plan.expansions_spec hfrom.plan hplaced
    have hentries := hfrom.entries_iff.mpr hunmoved
    have hdisjoint := (hfrom.above_iff hentries).mp hbetween
    exact {
      places := fun e he => by
        obtain ⟨g, hg⟩ := haccepted e he
        exact hg.getElem?_index hplaced
      source_order := hbefore.imp fun hlt keyword keyword' => hplaced.start_lt_start hlt.decl
      entries := hentries
      above := hdisjoint
      resolves := resolves_iff hentries hdisjoint }

end

/-- Without line comments, an expansion whose function is found is not moved. -/
theorem Expansion.Accepted.unmoved {o : Options} {name src output : Bytes} {source f : File}
    {e : Expansion} {g : CommentGroup} {d : FuncDecl} {b : Block}
    (hsource : parseFile? name src = some source) (houtput : parseFile? name output = some f)
    (he : e.Accepted o source g) (hsourceInfos : source.table.infos = [])
    (houtputInfos : f.table.infos = []) (hd : f.funcs[e.index]? = some d)
    (hname : (Owner.func d).name = e.name) (hbody : d.body = some b) :
    e.Unmoved output source.table f := by
  obtain ⟨l, -, hplaced⟩ := exists_filePlaced hsource
  obtain ⟨keyword, _, _, horigin⟩ := hplaced.exists_stands he.decl_mem he.body
  obtain ⟨l', -, hplaced'⟩ := exists_filePlaced houtput
  obtain ⟨start, lb, rb, hstands⟩ := hplaced'.exists_stands (List.mem_of_getElem? hd) hbody
  exact ⟨keyword, start, rb, horigin.start_eq, ⟨d, lb, hd, hname, hstands⟩,
    LineTable.straight_of_infos_eq_nil hsourceInfos _,
    LineTable.straight_of_infos_eq_nil houtputInfos _,
    LineTable.straight_of_infos_eq_nil houtputInfos _⟩

theorem map_correct_iff_pairSource : ∃ x p f, expandText .standard "a.go" pairSource = .ok x ∧
    x.map = [⟨3, 17, "a.go", 4, "f", 3⟩, ⟨21, 35, "a.go", 9, "h", 3⟩] ∧
    Plan.ofSource? .standard "a.go" pairSource = some p ∧ parseFile? "a.go" x.output = some f ∧
    x.map.Correct "a.go" pairSource x.output p f := by
  obtain ⟨p, f, x, hx, hfrom, -, -, hmap, -, hinfos, hinfos', hfound⟩ := exists_from_pairSource
  obtain ⟨hsource, -⟩ := Plan.ofSource?_eq_some hfrom.plan
  have hunmoved : ∀ e ∈ p.expansions, e.Unmoved x.output p.file.table f := by
    obtain ⟨l, -, hplaced⟩ := exists_filePlaced hsource
    intro e he
    obtain ⟨g, hg⟩ := (Plan.expansions_spec hfrom.plan hplaced).1 e he
    obtain ⟨d, hd, hname, hbody⟩ := hfound e he
    obtain ⟨b, hbody⟩ := Option.isSome_iff_exists.mp hbody
    exact hg.unmoved hsource hfrom.file hinfos hinfos' hd hname hbody
  have hbetween : p.expansions.Pairwise (Expansion.LineBetween x.output f) := by
    rw [hfrom.above_iff (hfrom.entries_iff.mpr hunmoved), hmap]
    simp [MapEntry.Above]
  obtain ⟨p', f', hp, hf, -, hiff⟩ := map_correct_iff hx
  obtain rfl : p = p' := Option.some.inj (hfrom.plan.symm.trans hp)
  obtain rfl : f = f' := Option.some.inj (hfrom.file.symm.trans hf)
  exact ⟨x, p, f, hx, hmap, hp, hf, hiff.mpr ⟨hunmoved, hbetween⟩⟩

/-- A line comment in front of a function. -/
def movedSource : Bytes :=
  "package p\n\n//line x.go:100\n\n//retry:onfailure 3\nfunc f() error \x7b return nil \x7d\n"

def movedOutput : Bytes := "package p\n\n//line x.go:100\n\n" ++ retriedText "f"

/-- A line comment moves the lines of an entry out of the output. -/
theorem map_moved_by_line_comment : ∃ x p f, expandText .standard "a.go" movedSource = .ok x ∧
    x.output = movedOutput ∧ x.map = [⟨101, 115, "a.go", 102, "f", 3⟩] ∧
    (∀ line : Nat, line ≤ 100 → x.map.resolve? line = none) ∧
    Plan.ofSource? .standard "a.go" movedSource = some p ∧ parseFile? "a.go" x.output = some f ∧
    ¬ x.map.Correct "a.go" movedSource x.output p f := by
  obtain ⟨p, f, x, hx, hfrom, houtput, -, hmap, hcount⟩ :
      ∃ p f x, expandText .standard "a.go" movedSource = .ok x ∧
        x.From .standard "a.go" movedSource p f ∧ x.output = movedOutput ∧ x.diagnostics = [] ∧
        x.map = [⟨101, 115, "a.go", 102, "f", 3⟩] ∧ movedOutput.count Ascii.newline = 19 :=
    exists_from_of_stages (by decide +kernel)
  refine ⟨x, p, f, hx, houtput, hmap, fun line hline => ?_, hfrom.plan, hfrom.file,
    fun hcorrect => ?_⟩
  · have hlt : ¬ (101 : Int) ≤ line := by omega
    simp [hmap, SourceMap.resolve?, MapEntry.covers, hlt]
  · -- the output has no line 101
    obtain ⟨e, -, _, start, _, -, -, hentry⟩ :=
      exists_mem_left hcorrect.entries (hmap ▸ List.mem_singleton_self _)
    have hfirst := congrArg MapEntry.first hentry
    have hle := lineNumber_le movedOutput start
    rw [houtput] at hfirst
    simp only at hfirst
    omega

end RetryWeave
