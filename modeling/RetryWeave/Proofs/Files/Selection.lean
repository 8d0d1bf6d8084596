import Mathlib
import RetryWeave.Proofs.Files.Layouts

/-! # Which files are found

A scan of files in memory finds the files that are named, and below every directory that is named the
Go files that no directory that is passed over has below it. The directory that is named itself is
never passed over. Every file is found once for every clean path that leads to it from the arguments,
and the result is in the order of the paths. -/

namespace RetryWeave

namespace Path

theorem base_ofElements_concat {rooted : Bool} {es : List Bytes} {e : Bytes} (he : IsElement e) :
    base (ofElements rooted (es ++ [e])) = e := by
  have hlead : lead rooted es = [] ∨ ∃ front, lead rooted es = front ++ [Ascii.slash] := by
    rcases List.eq_nil_or_concat es with rfl | ⟨before, last, rfl⟩
    · cases rooted with
      | true => exact .inr ⟨[], rfl⟩
      | false => exact .inl rfl
    · exact .inr ⟨_, by rw [List.concat_eq_append, lead_concat]⟩
  refine base_eq_of_getLast? ?_ he.ne_nil
  rw [ofElements_concat]
  rcases hlead with hnil | ⟨front, hfront⟩
  · rw [hnil, List.nil_append, Bytes.split_of_notMem he.slash_notMem]
    rfl
  · rw [hfront, List.append_assoc, List.singleton_append, Bytes.split_append_cons,
      Bytes.split_of_notMem he.slash_notMem, List.getLast?_concat]

theorem isAbs_clean (p : Bytes) : isAbs (clean p) = isAbs p :=
  isAbs_ofElements fun _ => isElement_of_mem_cleanElements

theorem isAbs_join_cons {d : Bytes} (hd : d ≠ []) (rest : List Bytes) :
    isAbs (join (d :: rest)) = isAbs d := by
  rw [join]
  split
  · rename_i hnil
    simp [hd] at hnil
  · rename_i hpresent
    rw [isAbs_clean]
    have hfilter : (d :: rest).filter (· ≠ []) = d :: rest.filter (· ≠ []) := by simp [hd]
    rw [hfilter]
    cases rest.filter (· ≠ []) with
    | nil => rfl
    | cons e more =>
        have hjoin : Bytes.join [Ascii.slash] (d :: e :: more) =
            d ++ ([Ascii.slash] ++ Bytes.join [Ascii.slash] (e :: more)) := by simp [Bytes.join]
        rw [hjoin, isAbs_append hd]

theorem isClean_join_cons {d : Bytes} (hd : d ≠ []) (rest : List Bytes) :
    IsClean (join (d :: rest)) := by
  rw [join]
  split
  · rename_i hnil
    simp [hd] at hnil
  · exact isClean_clean _

theorem ofElements_false_concat (es : List Bytes) (e : Bytes) :
    ofElements false (es ++ [e]) = Bytes.join [Ascii.slash] (es ++ [e]) := by
  simp [ofElements]

end Path

namespace Files

open RetryWeave.Path

theorem Memory.isAbs_resolve {m : Memory} (h : isAbs m.root = true) (path : Bytes) :
    isAbs (m.resolve path) = true := by
  rw [resolve]
  split
  · exact h
  · split
    · rename_i habs
      rw [isAbs_clean]
      exact habs
    · rw [isAbs_join_cons _ [path]]
      · exact h
      · rintro hnil
        rw [hnil] at h
        cases h

namespace Scan

/-! ## The visitor -/

/-- The directories that are passed over, by the ways to them from the directory that is scanned. -/
def passes (exclude : List Bytes) (rel : Bytes) : Bool :=
  rel ≠ [Ascii.dot] && (isSkippedDir (base rel) || isExcluded exclude (base rel) rel)

/-- What is kept of an entry. -/
def kept (exclude : List Bytes) (root : Bytes) (v : Visit) : List SourceFile :=
  if v.info.isDir || (!isSourceName v.info.name || isIgnored v.info.name ||
    isExcluded exclude v.info.name v.rel) then []
  else [⟨join [root, v.rel], root, v.rel⟩]

variable {exclude : List Bytes} {root : Bytes} {f : SourceFile}

theorem mem_kept_iff {v : Visit} : f ∈ kept exclude root v ↔ v.info.isDir = false ∧
    isSourceName v.info.name = true ∧ isIgnored v.info.name = false ∧
    isExcluded exclude v.info.name v.rel = false ∧ f = ⟨join [root, v.rel], root, v.rel⟩ := by
  rw [kept]
  split
  · rename_i hpassed
    simp only [Bool.or_eq_true, Bool.not_eq_true'] at hpassed
    rcases hpassed with hdir | (hname | hignored) | hexcluded <;> simp [*]
  · rename_i hwanted
    simp only [Bool.or_eq_true, Bool.not_eq_true', not_or, Bool.not_eq_true,
      Bool.not_eq_false] at hwanted
    obtain ⟨hfile, ⟨hname, hignored⟩, hexcluded⟩ := hwanted
    simp [*]

theorem gathers_collector {visits : List Visit}
    (h : ∀ v ∈ visits, v.rel ≠ [Ascii.dot] → v.info.name = base v.rel) :
    Gathers (collector exclude root) (passes exclude) (kept exclude root) visits := by
  intro v hv seen
  have hpasses : passes exclude v.rel = (v.rel ≠ [Ascii.dot] &&
      (isSkippedDir v.info.name || isExcluded exclude v.info.name v.rel)) := by
    by_cases hdot : v.rel = [Ascii.dot]
    · simp [passes, hdot]
    · rw [passes, h v hv hdot]
  rw [hpasses]
  cases hdir : v.info.isDir with
  | true =>
      simp only [collector, kept, hdir, if_true, Bool.true_and, Bool.true_or, List.append_nil]
      split <;> rfl
  | false =>
      simp only [collector, kept, hdir, Bool.false_eq_true, if_false, Bool.false_and, Bool.false_or]
      split
      · rw [List.append_nil]
      · rfl

/-! ## Below a directory -/

/-- The file to which names lead down from a directory is one to be found. -/
structure Found (m : Memory) (exclude : List Bytes) (d : Bytes) (names : List Bytes) : Prop where
  isName : ∀ name ∈ names, IsName name
  stored : ∃ content perm, m.entry? (place d names) = some (.file content perm)
  wanted : ∃ front name, names = front ++ [name] ∧ isSourceName name = true ∧
    isIgnored name = false ∧ isExcluded exclude name (Bytes.join [Ascii.slash] names) = false
  exposed : ∀ front name rest, names = front ++ name :: rest → rest ≠ [] →
    m.entry? (place d (front ++ [name])) = some .dir → isSkippedDir name = false ∧
      isExcluded exclude name (Bytes.join [Ascii.slash] (front ++ [name])) = false

theorem name_info_place {d name : Bytes} {front : List Bytes} (h : IsElement name)
    (e : MemoryEntry) : (e.info (place d (front ++ [name]))).name = name := by
  have hbase : base (place d (front ++ [name])) = name := by
    rw [place, ← List.append_assoc, base_ofElements_concat h]
  cases e <;> exact hbase

section

variable {m : Memory} {d : Bytes} (hm : m.Sound) (hd : IsClean d) (habs : isAbs d = true)
  {names : List Bytes} (hnames : ∀ name ∈ names, IsName name)

include hm hd habs

theorem name_of_mem_listing {v : Visit} (hv : v ∈ m.listing d) (hdot : v.rel ≠ [Ascii.dot]) :
    v.info.name = base v.rel := by
  obtain ⟨l, e, hl, -, rfl⟩ := (Memory.mem_listing_place_iff hm hd habs).mp hv
  rcases List.eq_nil_or_concat l with rfl | ⟨front, name, rfl⟩
  · exact absurd rfl hdot
  · rw [List.concat_eq_append] at hl ⊢
    have hname : IsElement name := (hl name (by simp)).toIsElement
    rw [base_ofElements_concat hname, name_info_place hname]

include hnames

/-- An entry is hidden by a directory on the way to it that is passed over. -/
theorem hidden_iff : (∃ u ∈ m.listing d, Hides (passes exclude) u (place d names)) ↔
    ∃ front name rest, names = front ++ name :: rest ∧ rest ≠ [] ∧
      m.entry? (place d (front ++ [name])) = some .dir ∧ (isSkippedDir name = true ∨
        isExcluded exclude name (Bytes.join [Ascii.slash] (front ++ [name])) = true) := by
  constructor
  · rintro ⟨u, hu, ⟨hskip, hstart⟩⟩
    obtain ⟨l, e, hl, hentry, rfl⟩ := (Memory.mem_listing_place_iff hm hd habs).mp hu
    rw [Memory.startsWith_append_slash_iff (isClean_place hd habs hl) (isClean_place hd habs hnames),
      above_place_iff hd habs hl hnames] at hstart
    obtain ⟨-, ⟨more, rfl⟩, hne⟩ := hstart
    simp only [MemoryEntry.isDir_info, passes, Bool.and_eq_true, decide_eq_true_eq] at hskip
    obtain ⟨hdir, hdot, hpassed⟩ := hskip
    rcases List.eq_nil_or_concat l with rfl | ⟨front, name, rfl⟩
    · exact absurd rfl hdot
    · rw [List.concat_eq_append] at hl hentry hne hpassed ⊢
      rw [base_ofElements_concat (hl name (by simp)).toIsElement, ofElements_false_concat,
        Bool.or_eq_true] at hpassed
      refine ⟨front, name, more, by simp, ?_, ?_, hpassed⟩
      · rintro rfl
        exact hne (List.append_nil _).symm
      · cases e with
        | file content perm => cases hdir
        | dir => exact hentry
  · rintro ⟨front, name, rest, rfl, hrest, hentry, hpassed⟩
    have hl : ∀ n ∈ front ++ [name], IsName n := fun n hn => hnames n (by
      rw [List.append_cons]
      exact List.mem_append_left rest hn)
    have hdot : ofElements false (front ++ [name]) ≠ [Ascii.dot] := by
      rw [ne_eq, ofElements_eq_dot_iff fun n hn => (hl n hn).toIsElement]
      simp
    refine ⟨_, (Memory.mem_listing_place_iff hm hd habs).mpr ⟨_, .dir, hl, hentry, rfl⟩, ?_, ?_⟩
    · simp only [MemoryEntry.isDir_info, MemoryEntry.isDir, passes, Bool.true_and, Bool.and_eq_true,
        decide_eq_true_eq, Bool.or_eq_true]
      rw [base_ofElements_concat (hl name (by simp)).toIsElement, ofElements_false_concat]
      exact ⟨ofElements_false_concat front name ▸ hdot, hpassed⟩
    · rw [Memory.startsWith_append_slash_iff (isClean_place hd habs hl) (isClean_place hd habs hnames),
        topmost_place_iff hd habs hl, above_place_iff hd habs hl hnames]
      refine ⟨by simp, ⟨rest, by simp⟩, fun heq => hrest ?_⟩
      rw [List.append_cons front name rest] at heq
      exact List.self_eq_append_right.mp heq

omit hnames

/-- The files that the walk of a directory finds. -/
theorem exists_walk_eq (exclude : List Bytes) (root : Bytes) (hdir : m.entry? d = some .dir) :
    ∃ found, (Directory.listing d (m.listing d)).walk (collector exclude root) [] = (none, found) ∧
      ∀ f, f ∈ found ↔ ∃ names, Found m exclude d names ∧
        f = ⟨join [root, Bytes.join [Ascii.slash] names], root, Bytes.join [Ascii.slash] names⟩ := by
  have hgathers : Gathers (collector exclude root) (passes exclude) (kept exclude root)
      (m.listing d) := gathers_collector fun v hv => name_of_mem_listing hm hd habs hv
  refine ⟨_, walk_listing_of_gathers hgathers d (Memory.pairwise_listing hm d), fun f => ?_⟩
  simp only [List.mem_flatMap, List.mem_filter, decide_eq_true_eq, mem_kept_iff]
  constructor
  · rintro ⟨v, ⟨hv, hhidden⟩, hfile, hsource, hignored, hexcluded, rfl⟩
    obtain ⟨names, e, hnames, hentry, rfl⟩ := (Memory.mem_listing_place_iff hm hd habs).mp hv
    rw [hidden_iff hm hd habs hnames] at hhidden
    rw [MemoryEntry.isDir_info] at hfile
    rcases List.eq_nil_or_concat names with rfl | ⟨front, name, rfl⟩
    · rw [place_nil hd habs, hdir] at hentry
      cases hentry
      cases hfile
    · rw [List.concat_eq_append] at *
      have hname : IsElement name := (hnames name (by simp)).toIsElement
      simp only [name_info_place hname, ofElements_false_concat] at hsource hignored hexcluded ⊢
      refine ⟨_, ⟨hnames, ?_, ⟨front, name, rfl, hsource, hignored, hexcluded⟩, ?_⟩, rfl⟩
      · cases e with
        | dir => cases hfile
        | file content perm => exact ⟨content, perm, hentry⟩
      · intro above passed rest hsplit hrest habove
        simp only [← Bool.not_eq_true, ← not_or]
        exact fun hpassed => hhidden ⟨above, passed, rest, hsplit, hrest, habove, hpassed⟩
  · rintro ⟨names, ⟨hnames, ⟨content, perm, hentry⟩, ⟨front, name, rfl, hwanted⟩, hexposed⟩, rfl⟩
    have hname : IsElement name := (hnames name (by simp)).toIsElement
    have hmem := (Memory.mem_listing_place_iff hm hd habs).mpr ⟨_, _, hnames, hentry, rfl⟩
    obtain ⟨hsource, hignored, hexcluded⟩ := hwanted
    refine ⟨_, ⟨hmem, ?_⟩, rfl, ?_⟩
    · rw [hidden_iff hm hd habs hnames]
      rintro ⟨above, passed, rest, hsplit, hrest, habove, hpassed⟩
      obtain ⟨hskipped, hexcluded⟩ := hexposed above passed rest hsplit hrest habove
      simp [hskipped, hexcluded] at hpassed
    · simp only [name_info_place hname, ofElements_false_concat]
      exact ⟨hsource, hignored, hexcluded, trivial⟩

end

/-! ## Arguments -/

variable {m : Memory} {arg : Bytes}

/-- There is nothing that an argument names, or it is a file that is no Go file. -/
def Refused (m : Memory) (arg : Bytes) : Prop :=
  (∃ f, m.stat (rootOf arg) = .error f) ∨
    ∃ i, m.stat (rootOf arg) = .ok i ∧ i.isDir = false ∧ isSourceName i.name = false

/-- The clean paths of the files that an argument stands for. -/
inductive Selected (m : Memory) (exclude : List Bytes) (arg : Bytes) : Bytes → Prop
  | named {i : Info} (stat : m.stat (rootOf arg) = .ok i) (isFile : i.isDir = false)
      (source : isSourceName i.name = true) : Selected m exclude arg (clean (rootOf arg))
  | found {i : Info} {names : List Bytes} (stat : m.stat (rootOf arg) = .ok i)
      (isDir : i.isDir = true) (found : Found m exclude (m.resolve (rootOf arg)) names) :
      Selected m exclude arg (join [rootOf arg, Bytes.join [Ascii.slash] names])

theorem rootOf_ne_nil (arg : Bytes) : rootOf arg ≠ [] := by
  rw [rootOf]
  split
  · exact List.cons_ne_nil _ _
  · rename_i h
    simp only [Bool.or_eq_true, decide_eq_true_eq, not_or] at h
    exact h.1

/-- One argument is refused, or stands for the files that are selected. -/
theorem scanOne_cases (hm : m.Sound) (habs : isAbs (m.resolve (rootOf arg)) = true)
    (exclude : List Bytes) :
    (Refused m arg ∧ ∃ f, scanOne m.reader exclude arg = Except.error f) ∨
    (¬ Refused m arg ∧ ∃ found, scanOne m.reader exclude arg = Except.ok found ∧
      ∀ p, p ∈ found.map (fun f => clean f.path) ↔ Selected m exclude arg p) := by
  have hd : IsClean (m.resolve (rootOf arg)) := Memory.isClean_resolve hm.root_clean _
  cases hstat : m.stat (rootOf arg) with
  | error f =>
      refine .inl ⟨.inl ⟨f, hstat⟩, .wrap ("failed to access " ++ arg ++ ": ") f [], ?_⟩
      simp only [scanOne, Memory.reader, hstat, bind, pure]
  | ok i =>
      have hrefused : Refused m arg ↔ i.isDir = false ∧ isSourceName i.name = false := by
        simp [Refused, hstat]
      rw [hrefused]
      cases hdir : i.isDir with
      | false =>
          cases hsource : isSourceName i.name with
          | false =>
              refine .inl ⟨⟨rfl, rfl⟩, .text ("not a Go source file: " ++ arg), ?_⟩
              simp [scanOne, Memory.reader, hstat, bind, pure, hdir, hsource]
          | true =>
              refine .inr ⟨by simp, [⟨rootOf arg, dir (rootOf arg), i.name⟩], ?_, fun p => ?_⟩
              · simp [scanOne, Memory.reader, hstat, bind, pure, hdir, hsource]
              · rw [List.map_singleton, List.mem_singleton]
                constructor
                · rintro rfl
                  exact .named hstat hdir hsource
                · rintro (⟨-, -, -⟩ | ⟨hstat', hdir', -⟩)
                  · rfl
                  · cases hstat.symm.trans hstat'
                    cases hdir.symm.trans hdir'
      | true =>
          have hentry := Memory.stat_isDir_iff.mp ⟨i, hstat, hdir⟩
          obtain ⟨found, hwalk, hfound⟩ := exists_walk_eq hm hd habs exclude (rootOf arg) hentry
          refine .inr ⟨by simp, found, ?_, fun p => ?_⟩
          · simp only [scanOne, Memory.reader, Memory.openDir, hstat, bind, pure, hdir, hentry, hwalk]
            rfl
          · have hclean : ∀ rel, clean (join [rootOf arg, rel]) = join [rootOf arg, rel] :=
              fun rel => isClean_join_cons (rootOf_ne_nil arg) [rel]
            simp only [List.mem_map, hfound]
            constructor
            · rintro ⟨f, ⟨names, hnames, rfl⟩, rfl⟩
              rw [hclean]
              exact .found hstat hdir hnames
            · rintro (⟨hstat', hfile, -⟩ | ⟨-, -, hnames⟩)
              · cases hstat.symm.trans hstat'
                cases hdir.symm.trans hfile
              · exact ⟨_, ⟨_, hnames, rfl⟩, hclean _⟩

/-- A list of arguments is refused with one of them, or stands for what they stand for together. -/
theorem scanAll_cases (hm : m.Sound) (habs : ∀ path, isAbs (m.resolve path) = true)
    (exclude args : List Bytes) :
    ((∃ arg ∈ args, Refused m arg) ∧ ∃ f, scanAll m.reader exclude args = Except.error f) ∨
    ((∀ arg ∈ args, ¬ Refused m arg) ∧ ∃ found, scanAll m.reader exclude args = Except.ok found ∧
      ∀ p, p ∈ found.map (fun f => clean f.path) ↔ ∃ arg ∈ args, Selected m exclude arg p) := by
  induction args with
  | nil => exact .inr ⟨by simp, [], rfl, by simp⟩
  | cons arg rest ih =>
      rcases scanOne_cases hm (habs (rootOf arg)) exclude with
        ⟨hrefused, f, hone⟩ | ⟨haccepted, found, hone, hfound⟩
      · refine .inl ⟨⟨arg, List.mem_cons_self, hrefused⟩, f, ?_⟩
        simp only [scanAll, hone, bind, pure]
      · rcases ih with ⟨⟨arg', harg', hrefused⟩, f, hall⟩ | ⟨hrest, more, hall, hmore⟩
        · refine .inl ⟨⟨arg', List.mem_cons_of_mem _ harg', hrefused⟩, f, ?_⟩
          simp only [scanAll, hone, hall, bind, pure]
        · refine .inr ⟨List.forall_mem_cons.mpr ⟨haccepted, hrest⟩, found ++ more, ?_, fun p => ?_⟩
          · simp only [scanAll, hone, hall, bind, pure]
          · rw [List.map_append, List.mem_append, hfound, hmore]
            simp

/-! ## One file for every path -/

/-- Every path that was not seen before is kept once. -/
theorem dropRepeated_spec (seen : List Bytes) (found : List SourceFile) :
    ((dropRepeated seen found).map fun f => clean f.path).Nodup ∧
    ∀ p, p ∈ (dropRepeated seen found).map (fun f => clean f.path) ↔
      p ∈ found.map (fun f => clean f.path) ∧ p ∉ seen := by
  induction found generalizing seen with
  | nil => simp [dropRepeated]
  | cons f rest ih =>
      rw [dropRepeated]
      by_cases hseen : clean f.path ∈ seen
      · obtain ⟨hnodup, hmem⟩ := ih seen
        simp only [List.contains_iff_mem, hseen, if_true, hmem, List.map_cons, List.mem_cons]
        refine ⟨hnodup, fun p => ?_⟩
        refine and_congr_left fun hp => ⟨.inr, fun hor => hor.resolve_left ?_⟩
        rintro rfl
        exact hp hseen
      · obtain ⟨hnodup, hmem⟩ := ih (clean f.path :: seen)
        simp only [List.contains_iff_mem, hseen, if_false, List.map_cons, List.nodup_cons, hmem,
          List.mem_cons, not_or]
        refine ⟨⟨fun h => h.2.1 trivial, hnodup⟩, fun p => ?_⟩
        by_cases heq : p = clean f.path
        · simp [heq, hseen]
        · simp [heq]

/-- A scan of files in memory under an absolute root. It fails if there is nothing that an argument
names, or a file that is no Go file. Otherwise it finds exactly the files that are selected, one for
every clean path, in the order of their paths. -/
theorem scan_selects {root : Bytes} (hroot : isAbs root = true) (ops : List Memory.Operation)
    (exclude args : List Bytes) :
    let m := (Memory.ofRoot root).run ops
    ((∃ f, (scan m.reader exclude args).run = .error f) ↔ ∃ arg ∈ args, Refused m arg) ∧
    ∀ found, (scan m.reader exclude args).run = .ok found →
      found.Pairwise (·.path < ·.path) ∧ (found.map fun f => clean f.path).Nodup ∧
      ∀ p, p ∈ found.map (fun f => clean f.path) ↔ ∃ arg ∈ args, Selected m exclude arg p := by
  intro m
  have hm : m.Sound := (Memory.sound_ofRoot root).run ops
  have habs : ∀ path, isAbs (m.resolve path) = true := Memory.isAbs_resolve <| by
    rw [Memory.root_run (Memory.sound_ofRoot root) ops]
    exact (isAbs_clean root).trans hroot
  rcases scanAll_cases hm habs exclude args with
    ⟨hrefused, f, hall⟩ | ⟨haccepted, all, hall, hmem⟩
  · have hscan : (scan m.reader exclude args).run = .error f := by
      simp only [scan, hall, bind, pure, Id.run]
    rw [hscan]
    exact ⟨⟨fun _ => hrefused, fun _ => ⟨f, rfl⟩⟩, fun found hfound => by cases hfound⟩
  · have hscan : (scan m.reader exclude args).run =
        .ok ((dropRepeated [] all).mergeSort inOrder) := by
      simp only [scan, hall, bind, pure, Id.run]
    rw [hscan]
    obtain ⟨hnodup, hkept⟩ := dropRepeated_spec [] all
    have hperm := (List.mergeSort_perm (dropRepeated [] all) inOrder).map fun f => clean f.path
    have hnone : ¬ ∃ arg ∈ args, Refused m arg := by
      rintro ⟨arg, harg, hrefused⟩
      exact haccepted arg harg hrefused
    refine ⟨⟨fun hfailed => ?_, fun hrefused => absurd hrefused hnone⟩, ?_⟩
    · obtain ⟨f, hf⟩ := hfailed
      cases hf
    rintro found ⟨⟩
    refine ⟨Bytes.pairwise_lt_mergeSort SourceFile.path ?_, hperm.nodup_iff.mpr hnodup, fun p => ?_⟩
    · have hcleaned : (((dropRepeated [] all).map (·.path)).map clean).Nodup := by
        rw [List.map_map]
        exact hnodup
      exact List.Pairwise.of_map clean (fun _ _ hne heq => hne (congrArg clean heq)) hcleaned
    · rw [hperm.mem_iff, hkept, ← hmem]
      simp

/-- A directory that is passed over, and one that its text stands before. -/
def mixedTree : List Memory.Operation :=
  [.add "a/x.go" "1", .add "a/vendor/v.go" "2", .add "a-b/y.go" "3"]

theorem scan_selects_mixedTree :
    ∃ found, (scan ((Memory.ofRoot "/r").run mixedTree).reader ["y.*"]
        ["./...", "a/vendor"]).run = .ok found ∧
      found.map (·.path) = ["a/vendor/v.go", "a/x.go"] ∧ found.Pairwise (·.path < ·.path) := by
  have hscan : (scan ((Memory.ofRoot "/r").run mixedTree).reader ["y.*"]
      ["./...", "a/vendor"]).run =
        .ok [⟨"a/vendor/v.go", "a/vendor", "v.go"⟩, ⟨"a/x.go", ".", "a/x.go"⟩] := by
    cbv
  have hroot : isAbs "/r" = true := rfl
  obtain ⟨-, hfound⟩ := scan_selects hroot mixedTree ["y.*"] ["./...", "a/vendor"]
  exact ⟨_, hscan, rfl, (hfound _ hscan).1⟩

end Scan

end Files

end RetryWeave
