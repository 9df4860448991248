import AccountApi.Spec.TopicMap

/-!
# The topic map does not depend on the order of the listings

Each part of the script is brought to a statement without an order: the scan of a source, the
files of a directory, the map of the classes and the sorted list.

* `mem_classNames`: the class names of a source are those that it exports.
* `mem_collectAggregateFiles`: the files of a directory, by the paths of the tree.
* `collectMappings_toOption`: the loops register the entries that are found, one by one.
* `topicMap_complete`: **the mappings are what the tree declares, however it is listed**.
-/

namespace AccountApi.TopicMap

open FileTree Regex JsString

section

variable {before w after : List Char} {x : Option (List Char)} {source className : String}

/-- What the capture group matches. -/
theorem matches_name : Matches (.capture (.seq (.plus isWordChar) (.lit "Aggregate".toList))) before w after x ↔
    ∃ stem, w = stem ++ "Aggregate".toList ∧ (stem ≠ [] ∧ ∀ c ∈ stem, isWordChar c = true) ∧
      x = some (stem ++ "Aggregate".toList) := by
  simp only [matches_capture, matches_seq_plus, matches_lit]
  constructor
  · rintro ⟨⟨_, stem, _, rfl, hstem, rfl, rfl⟩, rfl⟩
    exact ⟨stem, rfl, hstem, rfl⟩
  · rintro ⟨stem, rfl, hstem, rfl⟩
    exact ⟨⟨none, stem, _, rfl, hstem, rfl, rfl⟩, rfl⟩

/-- What `EXPORTED_AGGREGATE` matches. -/
theorem matches_exportedAggregate : Matches exportedAggregate before w after x ↔
    ∃ ws₁ ws₂ stem, w = "export".toList ++ ws₁ ++ "class".toList ++ ws₂ ++ (stem ++ "Aggregate".toList) ∧
      (ws₁ ≠ [] ∧ ∀ c ∈ ws₁, isWhiteSpace c = true) ∧ (ws₂ ≠ [] ∧ ∀ c ∈ ws₂, isWhiteSpace c = true) ∧
      (stem ≠ [] ∧ ∀ c ∈ stem, isWordChar c = true) ∧ after.head?.any isWordChar = false ∧
      x = some (stem ++ "Aggregate".toList) := by
  -- the name ends with a word character, so the boundary is about what follows
  have hboundary : ∀ stem before' : List Char,
      IsBoundary ((stem ++ "Aggregate".toList).reverse ++ before') after ↔
        after.head?.any isWordChar = false := by
    intro stem before'
    have hlast : isWordChar 'e' = true := by decide
    simp [IsBoundary, hlast]
  simp only [exportedAggregate, matches_seq_lit, matches_seq_plus, matches_seq_boundary, matches_name]
  constructor
  · rintro ⟨_, rfl, ws₁, _, rfl, h₁, _, rfl, ws₂, _, rfl, h₂, ⟨stem, rfl, hstem, rfl⟩, hend⟩
    rw [hboundary] at hend
    exact ⟨ws₁, ws₂, stem, by simp, h₁, h₂, hstem, hend, rfl⟩
  · rintro ⟨ws₁, ws₂, stem, rfl, h₁, h₂, hstem, hend, rfl⟩
    refine ⟨_, by simp, ws₁, _, rfl, h₁, _, rfl, ws₂, _, rfl, h₂, ⟨stem, rfl, hstem, rfl⟩, ?_⟩
    rwa [hboundary]

/-- The name that is captured is one word. -/
theorem isWordChar_name {stem : List Char} (hstem : ∀ c ∈ stem, isWordChar c = true) :
    ∀ c ∈ stem ++ "Aggregate".toList, isWordChar c = true := by
  have hsuffix : ∀ c ∈ "Aggregate".toList, isWordChar c = true := List.all_eq_true.1 (by decide)
  intro c hc
  exact (List.mem_append.1 hc).elim (hstem c) (hsuffix c)

/-- No white space is a letter, a digit or `_`. -/
theorem isWhiteSpace_of_isWordChar (c : Char) (h : isWordChar c = true) : isWhiteSpace c = false := by
  have hrange : 48 ≤ c.toNat ∧ c.toNat ≤ 122 := by
    simp only [isWordChar, Bool.or_eq_true, Bool.and_eq_true, decide_eq_true_eq] at h
    omega
  unfold isWhiteSpace
  simp only [Bool.or_eq_false_iff, Bool.and_eq_false_iff, decide_eq_false_iff_not]
  omega

theorem isWordChar_of_isWhiteSpace (c : Char) (h : isWhiteSpace c = true) : isWordChar c = false := by
  by_contra hword
  have hspace := isWhiteSpace_of_isWordChar c (by simpa using hword)
  simp [h] at hspace

section

variable {ws₁ ws₁' ws₂ ws₂' stem stem' u v rest after' : List Char}

/-- The text of a match determines its parts. -/
theorem match_unique (h₁ : ∀ c ∈ ws₁, isWhiteSpace c = true) (h₁' : ∀ c ∈ ws₁', isWhiteSpace c = true)
    (h₂ : ∀ c ∈ ws₂, isWhiteSpace c = true) (h₂' : ∀ c ∈ ws₂', isWhiteSpace c = true)
    (hstem : stem ≠ [] ∧ ∀ c ∈ stem, isWordChar c = true)
    (hstem' : stem' ≠ [] ∧ ∀ c ∈ stem', isWordChar c = true)
    (hend : after.head?.any isWordChar = false) (hend' : after'.head?.any isWordChar = false)
    (heq : ws₁ ++ ("class".toList ++ (ws₂ ++ ((stem ++ "Aggregate".toList) ++ after))) =
      ws₁' ++ ("class".toList ++ (ws₂' ++ ((stem' ++ "Aggregate".toList) ++ after')))) :
    ws₁ = ws₁' ∧ ws₂ = ws₂' ∧ stem = stem' := by
  have hstart : ∀ {stem : List Char} (after : List Char), (stem ≠ [] ∧ ∀ c ∈ stem, isWordChar c = true) →
      ((stem ++ "Aggregate".toList) ++ after).head?.any isWhiteSpace = false := by
    intro stem after hstem
    rw [List.append_assoc]
    exact head_of_run hstem isWhiteSpace_of_isWordChar _
  obtain ⟨hws₁, hclass⟩ := run_unique h₁ rfl h₁' rfl heq
  have hrest := List.append_cancel_left hclass
  obtain ⟨hws₂, hnames⟩ := run_unique h₂ (hstart after hstem) h₂' (hstart after' hstem') hrest
  obtain ⟨hstems, -⟩ := run_unique (isWordChar_name hstem.2) hend (isWordChar_name hstem'.2) hend' hnames
  exact ⟨hws₁, hws₂, List.append_cancel_right hstems⟩

/-- No match starts in the name of another one: it would be a word that ends with `export`. -/
theorem export_not_in_name (hstem : ∀ c ∈ stem, isWordChar c = true) (hend : after.head?.any isWordChar = false)
    (hname : stem ++ "Aggregate".toList = u ++ v) (hws : ws₁ ≠ [] ∧ ∀ c ∈ ws₁, isWhiteSpace c = true) :
    v ++ after ≠ "export".toList ++ (ws₁ ++ rest) := by
  intro heq
  have hword : ∀ c ∈ v, isWordChar c = true := by
    intro c hc
    exact isWordChar_name hstem c (hname ▸ List.mem_append_right u hc)
  have hspace := head_of_run hws isWordChar_of_isWhiteSpace rest
  obtain ⟨rfl, -⟩ := run_unique hword hend (List.all_eq_true.1 (by decide)) hspace heq
  have hsuffix : "export".toList <:+ "Aggregate".toList :=
    List.suffix_of_suffix_length_le ⟨u, hname.symm⟩ ⟨stem, rfl⟩ (by decide)
  exact absurd hsuffix (by decide)

/-- Nor before it: from the second character on, there is no `e` in front of the name. -/
theorem no_e_before_name {c : Char} (h₁ : ∀ c ∈ ws₁, isWhiteSpace c = true)
    (h₂ : ∀ c ∈ ws₂, isWhiteSpace c = true) (hu : u ≠ [])
    (heq : "export".toList ++ ws₁ ++ "class".toList ++ ws₂ = u ++ c :: v) : c ≠ 'e' := by
  rintro rfl
  have hspace : ∀ ws : List Char, (∀ c ∈ ws, isWhiteSpace c = true) → 'e' ∉ ws := by
    intro ws hws he
    exact absurd (hws 'e' he) (by decide)
  have hnot : 'e' ∉ "xport".toList ++ ws₁ ++ "class".toList ++ ws₂ := by simp [hspace ws₁ h₁, hspace ws₂ h₂]
  cases u with
  | nil => exact hu rfl
  | cons d u =>
    have htail : "xport".toList ++ ws₁ ++ "class".toList ++ ws₂ = u ++ 'e' :: v := (List.cons.inj heq).2
    exact hnot (htail ▸ List.mem_append_right u List.mem_cons_self)

end

/-- **The matches of `EXPORTED_AGGREGATE` do not overlap**, and where one starts determines it. -/
theorem unambiguous_exportedAggregate : Unambiguous exportedAggregate := by
  constructor
  · intro before w after w' after' x x' h h' heq
    obtain ⟨ws₁, ws₂, stem, rfl, ⟨-, h₁⟩, ⟨-, h₂⟩, hstem, hend, rfl⟩ := matches_exportedAggregate.1 h
    obtain ⟨ws₁', ws₂', stem', rfl, ⟨-, h₁'⟩, ⟨-, h₂'⟩, hstem', hend', rfl⟩ :=
      matches_exportedAggregate.1 h'
    simp only [List.append_assoc] at heq
    have hrest := List.append_cancel_left heq
    obtain ⟨rfl, rfl, rfl⟩ := match_unique h₁ h₁' h₂ h₂' hstem hstem' hend hend' (by simpa using hrest)
    exact ⟨rfl, rfl⟩
  · intro before u v after w after' x x' hu _ h h' heq
    obtain ⟨ws₁, ws₂, stem, hw, ⟨-, h₁⟩, ⟨-, h₂⟩, ⟨-, hstem⟩, hend, -⟩ := matches_exportedAggregate.1 h
    obtain ⟨ws₁', ws₂', stem', rfl, hws₁', -⟩ := matches_exportedAggregate.1 h'
    simp only [List.append_assoc] at heq
    -- the inner match starts in the name, or in front of it
    rcases List.append_eq_append_iff.1 hw with ⟨u', hfront, rfl⟩ | ⟨u', -, hname⟩
    · cases u' with
      | nil => exact export_not_in_name (u := []) hstem hend rfl hws₁' heq
      | cons c u' =>
        have hc : c = 'e' := by simpa using congrArg List.head? heq
        exact no_e_before_name h₁ h₂ hu hfront hc
    · exact export_not_in_name hstem hend hname hws₁' heq

/-- **The scan of a source finds exactly the classes that it exports.** -/
theorem mem_classNames : className ∈ classNames source ↔ Exports source className := by
  unfold classNames Exports
  rw [List.mem_map]
  constructor
  · rintro ⟨x, hx, rfl⟩
    obtain ⟨before, w, after, hsource, hw⟩ := (mem_matchAll unambiguous_exportedAggregate).1 hx
    obtain ⟨ws₁, ws₂, stem, rfl, h₁, h₂, hstem, hend, rfl⟩ := matches_exportedAggregate.1 hw
    exact ⟨before, ws₁, ws₂, stem, after, by simpa using hsource, h₁, h₂, by simp, hstem, hend⟩
  · rintro ⟨before, ws₁, ws₂, stem, after, hsource, h₁, h₂, hname, hstem, hend⟩
    refine ⟨some className.toList, (mem_matchAll unambiguous_exportedAggregate).2 ?_, by simp⟩
    rw [hname] at hsource ⊢
    refine ⟨before, _, after, ?_, matches_exportedAggregate.2 ⟨ws₁, ws₂, stem, rfl, h₁, h₂, hstem, hend, rfl⟩⟩
    rw [hsource]
    simp

end

section

variable {root n : Node} {dir path : Path} {es : List (String × Node)}

/-- Below the entries, through directories only, there is a file of this name. -/
def Reaches : List (String × Node) → Path → String → String → Prop
  | es, [], name, content => (name, .file content) ∈ es
  | es, d :: dirs, name, content => ∃ es', (d, .directory es') ∈ es ∧ Reaches es' dirs name content

/-- The paths of the aggregate files below the entries of `dir`. -/
def IsCollected (dir : Path) (es : List (String × Node)) (path : Path) : Prop :=
  ∃ dirs name content, path = dir ++ dirs ++ [name] ∧ Reaches es dirs name content ∧ isAggregateFile name = true

theorem isCollected_cons {name : String} :
    IsCollected dir ((name, n) :: es) path ↔ IsCollected dir [(name, n)] path ∨ IsCollected dir es path := by
  have hreaches : ∀ dirs file content, Reaches ((name, n) :: es) dirs file content ↔
      Reaches [(name, n)] dirs file content ∨ Reaches es dirs file content := by
    intro dirs file content
    cases dirs with
    | nil => simp [Reaches]
    | cons d dirs => simp [Reaches, or_and_right, exists_or]
  simp only [IsCollected, hreaches, or_and_right, and_or_left, exists_or]

/-- Below a directory are the files of its entries. -/
theorem isCollected_directory {name : String} :
    IsCollected dir [(name, .directory es)] path ↔ IsCollected (dir ++ [name]) es path := by
  constructor
  · rintro ⟨dirs, file, content, hpath, hreaches, hfile⟩
    cases dirs with
    | nil => simp [Reaches] at hreaches
    | cons d dirs =>
      obtain ⟨es', hmem, hreaches⟩ := hreaches
      obtain ⟨rfl, rfl⟩ : d = name ∧ es' = es := by simpa using hmem
      exact ⟨dirs, file, content, by simpa using hpath, hreaches, hfile⟩
  · rintro ⟨dirs, file, content, hpath, hreaches, hfile⟩
    exact ⟨name :: dirs, file, content, by simpa using hpath, ⟨es, List.mem_singleton_self _, hreaches⟩, hfile⟩

/-- What is no directory is at most collected itself. -/
theorem isCollected_leaf {name : String} (hn : ∀ es, n ≠ .directory es) :
    IsCollected dir [(name, n)] path ↔ (∃ content, n = .file content) ∧ isAggregateFile name = true ∧
      path = dir ++ [name] := by
  constructor
  · rintro ⟨dirs, file, content, hpath, hreaches, hfile⟩
    cases dirs with
    | nil =>
      obtain ⟨rfl, rfl⟩ : file = name ∧ Node.file content = n := by simpa [Reaches] using hreaches
      exact ⟨⟨content, rfl⟩, hfile, by simpa using hpath⟩
    | cons d dirs =>
      obtain ⟨es', hmem, -⟩ := hreaches
      have hdirectory : Node.directory es' = n := (Prod.ext_iff.1 (List.mem_singleton.1 hmem)).2
      exact absurd hdirectory.symm (hn es')
  · rintro ⟨⟨content, rfl⟩, hfile, hpath⟩
    exact ⟨[], name, content, by simpa using hpath, List.mem_singleton_self _, hfile⟩

mutual

/-- What one entry adds. -/
theorem mem_collectEntry (dir : Path) (name : String) (path : Path) :
    ∀ n : Node, path ∈ collectEntry dir name n ↔ IsCollected dir [(name, n)] path
  | .directory es => by
    rw [isCollected_directory, ← mem_collectEntries (dir ++ [name]) path es, collectEntry]
  | .file content => by
    rw [isCollected_leaf (by simp), collectEntry]
    by_cases hfile : isAggregateFile name = true <;> simp [hfile]
  | .link target => by
    rw [isCollected_leaf (by simp), collectEntry]
    simp
  | .other => by
    rw [isCollected_leaf (by simp), collectEntry]
    simp

/-- **All aggregate files are found**, at any depth. -/
theorem mem_collectEntries (dir : Path) (path : Path) :
    ∀ es : List (String × Node), path ∈ collectEntries dir es ↔ IsCollected dir es path
  | [] => by
    have hnone : ¬ IsCollected dir [] path := by
      rintro ⟨dirs, file, content, -, hreaches, -⟩
      cases dirs with
      | nil => cases hreaches
      | cons d dirs =>
        obtain ⟨es', hmem, -⟩ := hreaches
        cases hmem
    simp [collectEntries, hnone]
  | (name, n) :: es => by
    rw [isCollected_cons, ← mem_collectEntry dir name path n, ← mem_collectEntries dir path es, collectEntries,
      List.mem_append]

end

/-- **What is reached** is said by the paths of the tree. -/
theorem reaches_iff (hv : root.Valid) (hn : root.lookup dir = some n) (hes : n.entries = some es) {dirs : Path}
    {name content : String} : Reaches es dirs name content ↔
      (∀ q, q ≠ [] → q <+: dirs → root.shapeAt (dir ++ q) = some .directory) ∧
        root.shapeAt (dir ++ dirs ++ [name]) = some (.file content) := by
  induction dirs generalizing dir n es with
  | nil =>
    simp only [List.append_nil, hv.shapeAt_entry hn hes, Node.shape_file, exists_eq_right]
    constructor
    · intro hmem
      exact ⟨fun q hq hprefix => absurd (List.prefix_nil.1 hprefix) hq, hmem⟩
    · exact fun h => h.2
  | cons d dirs ih =>
    have hpath : ∀ q, dir ++ d :: q = dir ++ [d] ++ q := by simp
    have hfile : dir ++ d :: dirs ++ [name] = dir ++ [d] ++ dirs ++ [name] := by simp
    constructor
    · rintro ⟨es', hmem, hreaches⟩
      obtain ⟨hdirs, hcontent⟩ := (ih ((hv.lookup_entry hn hes).2 hmem) rfl).1 hreaches
      refine ⟨fun q hq hprefix => ?_, hfile ▸ hcontent⟩
      obtain ⟨q', rfl, hq'⟩ : ∃ q', q = d :: q' ∧ q' <+: dirs := by
        cases q with
        | nil => exact absurd rfl hq
        | cons d' q' =>
          obtain ⟨rfl, hq'⟩ := List.cons_prefix_cons.1 hprefix
          exact ⟨q', rfl, hq'⟩
      rw [hpath]
      by_cases hnil : q' = []
      · rw [hnil, List.append_nil]
        exact (hv.shapeAt_entry hn hes).2 ⟨_, hmem, rfl⟩
      · exact hdirs q' hnil hq'
    · rintro ⟨hdirs, hcontent⟩
      obtain ⟨n', hmem, hshape⟩ := (hv.shapeAt_entry hn hes).1 (hdirs [d] (by simp) (by simp))
      obtain ⟨es', rfl⟩ := Node.shape_directory.1 hshape
      refine ⟨es', hmem, (ih ((hv.lookup_entry hn hes).2 hmem) rfl).2 ⟨fun q _ hprefix => ?_, hfile ▸ hcontent⟩⟩
      rw [← hpath]
      exact hdirs (d :: q) (by simp) (List.cons_prefix_cons.2 ⟨rfl, hprefix⟩)

/-- **The aggregate files of a directory**, by the paths of the tree. -/
theorem mem_collectAggregateFiles (hv : root.Valid) : path ∈ collectAggregateFiles root dir ↔
    ∃ dirs name content, path = dir ++ dirs ++ [name] ∧
      (∀ q, q ≠ [] → q <+: dirs → root.shapeAt (dir ++ q) = some .directory) ∧
      root.shapeAt (dir ++ dirs ++ [name]) = some (.file content) ∧ isAggregateFile name = true := by
  cases hdir : (root.lookup dir).bind (·.entries) with
  | some es =>
    obtain ⟨n, hn, hes⟩ := Option.bind_eq_some_iff.1 hdir
    simp only [collectAggregateFiles, hdir, mem_collectEntries, IsCollected, reaches_iff hv hn hes, and_assoc]
  | none =>
    simp only [collectAggregateFiles, hdir, List.not_mem_nil, false_iff]
    rintro ⟨dirs, name, content, -, -, hcontent, -⟩
    obtain ⟨x, q, hxq⟩ : ∃ x q, dirs ++ [name] = x :: q := by
      cases dirs with
      | nil => exact ⟨name, [], rfl⟩
      | cons d dirs => exact ⟨d, dirs ++ [name], rfl⟩
    rw [List.append_assoc, hxq] at hcontent
    obtain ⟨n, es, hn, hes⟩ := Node.entries_of_shapeAt hcontent
    simp [hn, hes] at hdir

/-- **The recursion of the source**: an entry that is a directory is collected at its own path. -/
theorem collectAggregateFiles_eq (hv : root.Valid) (dir : Path) : collectAggregateFiles root dir =
    ((readdirSync root dir).getD []).flatMap fun entry =>
      if entry.isDirectory then collectAggregateFiles root (dir ++ [entry.name])
      else if entry.isFile && isAggregateFile entry.name then [dir ++ [entry.name]] else [] := by
  cases hdir : (root.lookup dir).bind (·.entries) with
  | none => simp [collectAggregateFiles, readdirSync, hdir]
  | some es =>
    obtain ⟨n, hn, hes⟩ := Option.bind_eq_some_iff.1 hdir
    have hentries : ∀ es, collectEntries dir es = es.flatMap fun e => collectEntry dir e.1 e.2 := by
      intro es
      induction es with
      | nil => rfl
      | cons e es ih => rw [collectEntries, ih, List.flatMap_cons]
    simp only [collectAggregateFiles, readdirSync, hdir, Option.map_some, Option.getD_some, List.flatMap_map]
    rw [hentries]
    refine List.flatMap_congr fun e he => ?_
    obtain ⟨name, n'⟩ := e
    have hlookup := (hv.lookup_entry hn hes).2 he
    cases n' with
    | file content => simp [dirent, collectEntry]
    | directory es' => simp [dirent, collectEntry, hlookup, Node.entries, Node.resolve]
    | link target => simp [dirent, collectEntry]
    | other => simp [dirent, collectEntry]

end

section

variable {root : Node} {m : List (String × String)} {es : List (String × String)}

/-- Each class once, with a module that has a name. -/
def Registered (m : List (String × String)) : Prop := (m.map (·.1)).Nodup ∧ ∀ e ∈ m, e.2 ≠ ""

/-- The step registers these entries, one after the other, and throws when one is refused. -/
def Follows (f : List (String × String) → Except TopicMapError (List (String × String)))
    (es : List (String × String)) : Prop :=
  (∀ e ∈ es, e.2 ≠ "") ∧ ∀ m, Registered m → (f m).toOption = es.foldlM Registry.register m

/-- **Steps in a loop** register the entries of each of them. -/
theorem Follows.foldlM {α : Type}
    {f : List (String × String) → α → Except TopicMapError (List (String × String))}
    {entriesOf : α → List (String × String)} {as : List α}
    (h : ∀ a ∈ as, Follows (fun m => f m a) (entriesOf a)) : Follows (as.foldlM f) (as.flatMap entriesOf) := by
  induction as with
  | nil => exact ⟨by simp, fun m _ => rfl⟩
  | cons a as ih =>
    obtain ⟨hnames, hstep⟩ := h a List.mem_cons_self
    obtain ⟨hnames', hrest⟩ := ih fun a' ha' => h a' (List.mem_cons_of_mem a ha')
    refine ⟨fun e he => ?_, fun m hm => ?_⟩
    · rw [List.flatMap_cons] at he
      exact (List.mem_append.1 he).elim (hnames e) (hnames' e)
    · have ha := hstep m hm
      dsimp only at ha ⊢
      rw [List.flatMap_cons, List.foldlM_append, ← ha, List.foldlM_cons]
      cases hfa : f m a with
      | error e => rfl
      | ok m' =>
        rw [hfa] at ha
        obtain ⟨hn', hmem'⟩ := Registry.foldlM_some hm.1 ha.symm
        have hm' : Registered m' := ⟨hn', fun e he => ((hmem' e).1 he).elim (hm.2 e) (hnames e)⟩
        exact hrest m' hm'

theorem follows_registerClass {moduleName className : String} (hname : moduleName ≠ "") :
    Follows (fun m => registerClass m moduleName className) [(className, moduleName)] := by
  refine ⟨by simpa using hname, fun m hm => ?_⟩
  simp only [List.foldlM_cons, List.foldlM_nil, registerClass, Registry.register]
  cases hget : Registry.get m className with
  | none => simp; rfl
  | some existing =>
    -- a module has a name, so `existing` is truthy
    have hexisting : existing ≠ "" := hm.2 (className, existing) (Registry.get_some hget)
    by_cases hsame : existing = moduleName
    · simp [hsame]; rfl
    · simp [hexisting, hsame]; rfl

/-- The entries of one aggregate file. -/
def fileEntries (root : Node) (moduleName : String) (filePath : Path) : List (String × String) :=
  (classNames ((readFileSync root filePath).getD "")).flatMap fun className => [(className, moduleName)]

/-- The entries of one module. -/
def moduleEntries (root : Node) (module : Dirent) : List (String × String) :=
  if module.isDirectory then
    (collectAggregateFiles root (aggregatesDir module.name)).flatMap (fileEntries root module.name)
  else []

/-- All classes with the modules they are found in, in the order of the listings. -/
def foundEntries (root : Node) : List (String × String) :=
  ((readdirSync root []).getD []).flatMap (moduleEntries root)

theorem follows_registerModule (hv : root.Valid) {module : Dirent} (hname : module.name ≠ "") :
    Follows (fun m => registerModule root m module) (moduleEntries root module) := by
  by_cases hdirectory : module.isDirectory = true
  · simp only [registerModule, moduleEntries, if_pos hdirectory]
    refine .foldlM fun path hpath => ?_
    obtain ⟨dirs, name, content, rfl, -, hcontent, -⟩ := (mem_collectAggregateFiles hv).1 hpath
    simp only [registerAggregateFile, fileEntries, readFileSync_of_shapeAt hcontent, Option.getD_some]
    exact .foldlM fun className _ => follows_registerClass hname
  · simp only [registerModule, moduleEntries, if_neg hdirectory]
    exact ⟨by simp, fun m _ => rfl⟩

/-- **The outcome is that of registering all entries.** -/
theorem collectMappings_toOption (hv : root.Valid) : (collectMappings root).toOption =
    (Registry.registerAll (foundEntries root)).map fun m => sortMappings (m.map fun e => ⟨e.1, e.2⟩) := by
  unfold collectMappings
  cases hdir : readdirSync root [] with
  | none => simp [foundEntries, hdir, Registry.registerAll, sortMappings]; rfl
  | some contextEntries =>
    obtain ⟨es, hes, rfl⟩ := Option.map_eq_some_iff.1 hdir
    have hnames : ∀ module ∈ es.map dirent, module.name ≠ "" := by
      intro module hmodule
      obtain ⟨e, he, rfl⟩ := List.mem_map.1 hmodule
      have hname : (dirent e).name = e.1 := by
        unfold dirent
        split <;> rfl
      rw [hname]
      exact ((hv.entries hes).2.1 e he).1
    obtain ⟨-, hfollows⟩ :=
      Follows.foldlM fun module hmodule => follows_registerModule hv (hnames module hmodule)
    have hfollows := hfollows [] ⟨List.nodup_nil, by simp⟩
    have hentries : foundEntries root = (es.map dirent).flatMap (moduleEntries root) := by
      simp [foundEntries, hdir]
    rw [hentries, Registry.registerAll, ← hfollows]
    dsimp only
    cases (es.map dirent).foldlM (registerModule root) [] <;> rfl

theorem mem_moduleEntries {d : Dirent} {module className : String} :
    (className, module) ∈ moduleEntries root d ↔ (d.isDirectory = true ∧ d.name = module) ∧
      ∃ path ∈ collectAggregateFiles root (aggregatesDir module),
        className ∈ classNames ((readFileSync root path).getD "") := by
  unfold moduleEntries
  split
  case isTrue hdirectory =>
    simp only [fileEntries, List.mem_flatMap, List.mem_singleton, Prod.mk.injEq, hdirectory, true_and]
    constructor
    · rintro ⟨path, hpath, _, hclass, rfl, rfl⟩
      exact ⟨rfl, path, hpath, hclass⟩
    · rintro ⟨rfl, path, hpath, hclass⟩
      exact ⟨path, hpath, className, hclass, rfl, rfl⟩
  case isFalse hdirectory => simp [hdirectory]

/-- **The entries that are found are what the tree declares.** -/
theorem mem_foundEntries (hv : root.Valid) {module className : String} :
    (className, module) ∈ foundEntries root ↔ Declares root module className := by
  have hmodule : (∃ d ∈ (readdirSync root []).getD [], d.isDirectory = true ∧ d.name = module) ↔
      root.shapeAt [module] = some .directory := mem_readdirSync_directory hv
  unfold foundEntries Declares
  rw [List.mem_flatMap, ← hmodule]
  simp only [mem_moduleEntries, mem_collectAggregateFiles hv]
  constructor
  · rintro ⟨d, hd, hdirectory, _, ⟨dirs, name, content, rfl, hdirs, hcontent, hfile⟩, hclass⟩
    rw [readFileSync_of_shapeAt hcontent, Option.getD_some, mem_classNames] at hclass
    exact ⟨⟨d, hd, hdirectory⟩, dirs, name, content, hdirs, hcontent, hfile, hclass⟩
  · rintro ⟨⟨d, hd, hdirectory⟩, dirs, name, content, hdirs, hcontent, hfile, hclass⟩
    refine ⟨d, hd, hdirectory, _, ⟨dirs, name, content, rfl, hdirs, hcontent, hfile⟩, ?_⟩
    rw [readFileSync_of_shapeAt hcontent, Option.getD_some, mem_classNames]
    exact hclass

end

section

variable {mappings mappings' : List AggregateMapping}

/-- The order of the comparison function. -/
def Before (a b : AggregateMapping) : Prop := a.className < b.className

theorem sortMappings_perm (mappings : List AggregateMapping) : (sortMappings mappings).Perm mappings :=
  List.perm_insertionSort _ mappings

/-- **The mappings come in strictly increasing order of their class names.** -/
theorem pairwise_sortMappings (hn : (mappings.map (·.className)).Nodup) :
    (sortMappings mappings).Pairwise Before := by
  have htotal : Std.Total fun a b : AggregateMapping => ¬ b.className < a.className :=
    ⟨fun a b => by simpa only [not_lt] using le_total a.className b.className⟩
  have htrans : IsTrans AggregateMapping fun a b => ¬ b.className < a.className :=
    ⟨fun a b c hab hbc => not_lt.2 (le_trans (not_lt.1 hab) (not_lt.1 hbc))⟩
  have hle : (sortMappings mappings).Pairwise fun a b => ¬ b.className < a.className :=
    List.pairwise_insertionSort _ mappings
  have hne : (sortMappings mappings).Pairwise fun a b => a.className ≠ b.className :=
    List.pairwise_map.1 (((sortMappings_perm mappings).map _).nodup_iff.2 hn)
  exact (hle.and hne).imp fun hab => lt_of_le_of_ne (not_lt.1 hab.1) hab.2

/-- Two lists in strictly increasing order with the same mappings are one. -/
theorem eq_of_mem_iff (h : mappings.Pairwise Before) (h' : mappings'.Pairwise Before)
    (hmem : ∀ p, p ∈ mappings ↔ p ∈ mappings') : mappings = mappings' := by
  have hnodup : ∀ {l : List AggregateMapping}, l.Pairwise Before → l.Nodup := by
    intro l hl
    refine hl.imp ?_
    rintro a b hab rfl
    exact lt_irrefl a.className hab
  refine List.Perm.eq_of_pairwise (fun a b _ _ hab hba => absurd hab (lt_asymm hba)) h h' ?_
  exact (List.perm_ext_iff_of_nodup (hnodup h) (hnodup h')).2 hmem

end

section

variable {root root' : Node} {mappings : List AggregateMapping}

/-- **`collectMappings` throws if and only if two modules declare one class.** -/
theorem collectMappings_error_iff (hv : root.Valid) : (∃ e, collectMappings root = .error e) ↔
    ∃ className module module', module ≠ module' ∧ Declares root module className ∧
      Declares root module' className := by
  have herror : (∃ e, collectMappings root = .error e) ↔ (collectMappings root).toOption = none := by
    cases collectMappings root <;> simp [Except.toOption]
  have hconsistent :
      (Registry.registerAll (foundEntries root)).isSome ↔ Registry.Consistent (foundEntries root) :=
    Registry.registerAll_isSome
  rw [herror, collectMappings_toOption hv, Option.map_eq_none_iff, ← Option.not_isSome_iff_eq_none, hconsistent]
  simp only [Registry.Consistent, Prod.forall, mem_foundEntries hv]
  push Not
  constructor
  · rintro ⟨className, module, hmodule, _, module', hmodule', rfl, hne⟩
    exact ⟨className, module, module', hne, hmodule, hmodule'⟩
  · rintro ⟨className, module, module', hne, hmodule, hmodule'⟩
    exact ⟨className, module, hmodule, className, module', hmodule', rfl, hne⟩

/-- **The mappings are what the tree declares**, in strictly increasing order of the class names. -/
theorem collectMappings_ok (hv : root.Valid) (h : (collectMappings root).toOption = some mappings) :
    (∀ className module, ⟨className, module⟩ ∈ mappings ↔ Declares root module className) ∧
      mappings.Pairwise Before := by
  rw [collectMappings_toOption hv] at h
  obtain ⟨m, hm, rfl⟩ := Option.map_eq_some_iff.1 h
  obtain ⟨hnodup, hmem⟩ := Registry.registerAll_some hm
  refine ⟨fun className module => ?_, pairwise_sortMappings ?_⟩
  · rw [(sortMappings_perm _).mem_iff, ← mem_foundEntries hv, ← hmem, List.mem_map]
    constructor
    · rintro ⟨e, he, heq⟩
      obtain ⟨rfl, rfl⟩ := AggregateMapping.mk.inj heq
      exact he
    · intro he
      exact ⟨_, he, rfl⟩
  · rw [List.map_map]
    exact hnodup

/-- The order of the listings is no part of what the tree declares. -/
theorem Declares.relisted (hv : root.Valid) (h : Relisted root root') {module className : String} :
    Declares root' module className ↔ Declares root module className := by
  unfold Declares
  simp only [h.shapeAt hv]

/-- **Nor of the mappings.** -/
theorem collectMappings_relisted (hv : root.Valid) (h : Relisted root root') :
    (collectMappings root').toOption = (collectMappings root).toOption := by
  have hv' : root'.Valid := h.valid hv
  have herrors : (∃ e, collectMappings root' = .error e) ↔ ∃ e, collectMappings root = .error e := by
    rw [collectMappings_error_iff hv', collectMappings_error_iff hv]
    simp only [Declares.relisted hv h]
  cases hroot : collectMappings root with
  | error e =>
    obtain ⟨e', he'⟩ := herrors.2 ⟨e, hroot⟩
    rw [he']
    rfl
  | ok mappings =>
    cases hroot' : collectMappings root' with
    | error e' =>
      obtain ⟨e, he⟩ := herrors.1 ⟨e', hroot'⟩
      rw [hroot] at he
      cases he
    | ok mappings' =>
      obtain ⟨hmem, hsorted⟩ := collectMappings_ok hv (show _ = some mappings by rw [hroot]; rfl)
      obtain ⟨hmem', hsorted'⟩ := collectMappings_ok hv' (show _ = some mappings' by rw [hroot']; rfl)
      refine congrArg some (eq_of_mem_iff hsorted' hsorted fun p => ?_)
      rw [hmem' p.className p.module, hmem p.className p.module, Declares.relisted hv h]

/-- **The topic map is complete and does not depend on the order of the listings.** -/
theorem topicMap_complete (contexts : Tree) :
    ((∃ e, collectMappings contexts.root = .error e) ↔
      ∃ className module module', module ≠ module' ∧ Declares contexts.root module className ∧
        Declares contexts.root module' className) ∧
    (∀ mappings, collectMappings contexts.root = .ok mappings →
      (∀ className module, ⟨className, module⟩ ∈ mappings ↔ Declares contexts.root module className) ∧
        mappings.Pairwise fun a b => a.className < b.className) ∧
    ∀ contexts' : Tree, Relisted contexts.root contexts'.root →
      (collectMappings contexts'.root).toOption = (collectMappings contexts.root).toOption ∧
        ∀ output argv,
          (main contexts'.root output argv).toOption = (main contexts.root output argv).toOption := by
  refine ⟨collectMappings_error_iff contexts.valid, fun mappings h => ?_, fun contexts' h => ?_⟩
  · exact collectMappings_ok contexts.valid (by rw [h]; rfl)
  · have hsame := collectMappings_relisted contexts.valid h
    refine ⟨hsame, fun output argv => ?_⟩
    unfold main
    cases hroot : collectMappings contexts.root <;> cases hroot' : collectMappings contexts'.root <;>
      rw [hroot, hroot'] at hsame
    · rfl
    · cases hsame
    · cases hsame
    · obtain rfl := Option.some.inj hsame
      rfl

end

/-- A module with one aggregate file. -/
def moduleOf (file content : String) : Node :=
  .directory [("domain", .directory [("aggregates", .directory [(file, .file content)])])]

theorem moduleOf_valid {file : String} (hfile : IsEntryName file) (content : String) :
    (moduleOf file content).Valid := by
  have hsingle : ∀ {name : String} {n : Node}, IsEntryName name → n.Valid →
      (Node.directory [(name, n)]).Valid := by
    intro name n hname hn
    refine .directory (List.nodup_singleton _) (fun e he => ?_) fun e he => ?_
    · exact List.mem_singleton.1 he ▸ hname
    · exact List.mem_singleton.1 he ▸ hn
  exact hsingle (by decide +kernel) (hsingle (by decide +kernel) (hsingle hfile (.file content)))

def userModule : String × Node := ("user", moduleOf "user.aggregate.ts" "export class UserAggregate {}")

def appModule : String × Node := ("app", moduleOf "app.aggregate.ts" "export class AppAggregate {}")

theorem twoModules_valid : (Node.directory [userModule, appModule]).Valid := by
  refine .directory (by decide +kernel) (by decide +kernel) fun e he => ?_
  rcases List.mem_pair.1 he with rfl | rfl
  · exact moduleOf_valid (by decide +kernel) _
  · exact moduleOf_valid (by decide +kernel) _

def twoModules : Tree := ⟨.directory [userModule, appModule], twoModules_valid⟩

theorem twoModules_relisted :
    Relisted (.directory [userModule, appModule]) (.directory [appModule, userModule]) :=
  .reorder (List.Perm.swap appModule userModule [])

/-- The same modules, listed the other way round. -/
def twoModulesReversed : Tree :=
  ⟨.directory [appModule, userModule], twoModules_relisted.valid twoModules_valid⟩

theorem topicMap_twoModules :
    ((∀ className module, ⟨className, module⟩ ∈
        ([⟨"AppAggregate", "app"⟩, ⟨"UserAggregate", "user"⟩] : List AggregateMapping) ↔
        Declares twoModules.root module className) ∧
      ([⟨"AppAggregate", "app"⟩, ⟨"UserAggregate", "user"⟩] : List AggregateMapping).Pairwise
        fun a b => a.className < b.className) ∧
    (collectMappings twoModulesReversed.root).toOption = (collectMappings twoModules.root).toOption :=
  ⟨(topicMap_complete twoModules).2.1 _ rfl,
    ((topicMap_complete twoModules).2.2 twoModulesReversed twoModules_relisted).1⟩

end AccountApi.TopicMap
