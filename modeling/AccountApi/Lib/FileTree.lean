import AccountApi.Lib.Table

/-!
# File trees

A directory lists its entries in some order, each name once. A path is looked up from the
root, and every link on the way is followed; `readdirSync` tells links from what they lead to.

* `Relisted`: the same tree, its directories listed in other orders.
* `Relisted.shapeAt`: it has the same files and directories at the same paths.
-/

namespace FileTree

inductive Node where
  | file (content : String)
  | directory (entries : List (String × Node))
  /-- A symbolic link, with what it leads to. -/
  | link (target : Node)
  /-- A link that leads nowhere, a socket, and at the root also nothing at all. -/
  | other

/-- The names on the way from the root. -/
abbrev Path := List String

/-- A name that a directory can have an entry of. -/
def IsEntryName (name : String) : Prop := name ≠ "" ∧ name ≠ "." ∧ name ≠ ".." ∧ '/' ∉ name.toList

instance (name : String) : Decidable (IsEntryName name) := by
  unfold IsEntryName; infer_instance

namespace Node

/-- No directory has two entries of one name. -/
inductive Valid : Node → Prop where
  | file (content : String) : Valid (.file content)
  | directory {entries : List (String × Node)} (hnodup : (entries.map (·.1)).Nodup)
      (hnames : ∀ e ∈ entries, IsEntryName e.1) (hvalid : ∀ e ∈ entries, Valid e.2) : Valid (.directory entries)
  | link {target : Node} (hvalid : Valid target) : Valid (.link target)
  | other : Valid .other

/-- What a link leads to. -/
def resolve : Node → Node
  | .link target => target.resolve
  | n => n

def entries (n : Node) : Option (List (String × Node)) :=
  match n.resolve with
  | .directory entries => some entries
  | _ => none

def lookup : Node → Path → Option Node
  | n, [] => some n
  | n, name :: path =>
    n.entries.bind fun entries => (entries.find? fun e => e.1 = name).bind fun e => e.2.lookup path

end Node

/-- A tree whose directories have no two entries of one name. -/
structure Tree where
  root : Node
  valid : root.Valid

structure Dirent where
  name : String
  isDirectory : Bool
  isFile : Bool
  deriving DecidableEq, Repr

/-- The entry that `withFileTypes` lists: it does not follow links. -/
def dirent (e : String × Node) : Dirent :=
  match e.2 with
  | .file _ => ⟨e.1, false, true⟩
  | .directory _ => ⟨e.1, true, false⟩
  | .link _ | .other => ⟨e.1, false, false⟩

/-- `readdirSync(path, { withFileTypes: true })`, `none` when it throws. -/
def readdirSync (root : Node) (path : Path) : Option (List Dirent) :=
  ((root.lookup path).bind (·.entries)).map (·.map dirent)

/-- `readFileSync(path, 'utf8')`, `none` when it throws. -/
def readFileSync (root : Node) (path : Path) : Option String :=
  match (root.lookup path).map Node.resolve with
  | some (.file content) => some content
  | _ => none

/-- A node without what is below it. -/
inductive Shape where
  | file (content : String)
  | directory
  | link
  | other
  deriving DecidableEq

def Node.shape : Node → Shape
  | .file content => .file content
  | .directory _ => .directory
  | .link _ => .link
  | .other => .other

def Node.shapeAt (root : Node) (path : Path) : Option Shape := (root.lookup path).map (·.shape)

/-- The directories are listed in other orders, at any depth. -/
inductive Relisted : Node → Node → Prop where
  | refl (n : Node) : Relisted n n
  | reorder {es es' : List (String × Node)} (h : es.Perm es') : Relisted (.directory es) (.directory es')
  | entry {n n' : Node} (before after : List (String × Node)) (name : String) (h : Relisted n n') :
      Relisted (.directory (before ++ (name, n) :: after)) (.directory (before ++ (name, n') :: after))
  | link {n n' : Node} (h : Relisted n n') : Relisted (.link n) (.link n')
  | trans {n n' n'' : Node} (h : Relisted n n') (h' : Relisted n' n'') : Relisted n n''

section

variable {root n n' : Node} {p q : Path} {name : String} {es : List (String × Node)}

theorem Node.lookup_append : root.lookup (p ++ q) = (root.lookup p).bind fun n => n.lookup q := by
  induction p generalizing root with
  | nil => rfl
  | cons x p ih =>
    simp only [List.cons_append, Node.lookup, ih, Option.bind_assoc]

theorem Node.Valid.resolve (h : n.Valid) : n.resolve.Valid := by
  induction h with
  | file content => exact .file content
  | directory hnodup hnames hvalid ih => exact .directory hnodup hnames hvalid
  | link hvalid ih => exact ih
  | other => exact .other

/-- The entries of a directory, or of one that a link leads to. -/
theorem Node.Valid.entries (h : n.Valid) (hes : n.entries = some es) :
    (es.map (·.1)).Nodup ∧ (∀ e ∈ es, IsEntryName e.1) ∧ ∀ e ∈ es, e.2.Valid := by
  have hvalid := h.resolve
  unfold Node.entries at hes
  split at hes
  case h_1 es' hres =>
    obtain rfl := Option.some.inj hes
    rw [hres] at hvalid
    cases hvalid with
    | directory hnodup hnames hvalid => exact ⟨hnodup, hnames, hvalid⟩
  case h_2 => cases hes

theorem Node.Valid.lookup (h : root.Valid) (hn : root.lookup p = some n) : n.Valid := by
  induction p generalizing root with
  | nil =>
    obtain rfl := Option.some.inj hn
    exact h
  | cons x p ih =>
    obtain ⟨es, hes, hn⟩ := Option.bind_eq_some_iff.1 hn
    obtain ⟨e, he, hn⟩ := Option.bind_eq_some_iff.1 hn
    exact ih ((h.entries hes).2.2 e (List.mem_of_find?_eq_some he)) hn

/-- **An entry of a directory is what is found at its path.** -/
theorem Node.Valid.lookup_entry (h : root.Valid) (hn : root.lookup p = some n) (hes : n.entries = some es) :
    root.lookup (p ++ [name]) = some n' ↔ (name, n') ∈ es := by
  have hnodup := ((h.lookup hn).entries hes).1
  rw [Node.lookup_append, hn]
  simp only [Option.bind_some, Node.lookup, hes, Option.bind_eq_some_iff, Option.some.injEq]
  constructor
  · rintro ⟨e, he, rfl⟩
    obtain ⟨hmem, rfl⟩ := Table.find_key_some he
    exact hmem
  · intro hmem
    exact ⟨(name, n'), Table.find_key_of_mem hnodup hmem, rfl⟩

theorem Node.shape_file {content : String} : n.shape = .file content ↔ n = .file content := by
  cases n <;> simp [Node.shape]

theorem Node.shape_directory : n.shape = .directory ↔ ∃ es, n = .directory es := by
  cases n <;> simp [Node.shape]

/-- **The shape at the path of an entry** is that of the entry. -/
theorem Node.Valid.shapeAt_entry {shape : Shape} (h : root.Valid) (hn : root.lookup p = some n)
    (hes : n.entries = some es) :
    root.shapeAt (p ++ [name]) = some shape ↔ ∃ n', (name, n') ∈ es ∧ n'.shape = shape := by
  unfold Node.shapeAt
  rw [Option.map_eq_some_iff]
  exact exists_congr fun n' => and_congr_left fun _ => h.lookup_entry hn hes

/-- What something is below is a directory, or a link to one. -/
theorem Node.entries_of_shapeAt {shape : Shape} (h : root.shapeAt (p ++ name :: q) = some shape) :
    ∃ n es, root.lookup p = some n ∧ n.entries = some es := by
  unfold Node.shapeAt at h
  rw [Node.lookup_append] at h
  obtain ⟨_, h, -⟩ := Option.map_eq_some_iff.1 h
  obtain ⟨n, hn, h⟩ := Option.bind_eq_some_iff.1 h
  obtain ⟨es, hes, -⟩ := Option.bind_eq_some_iff.1 h
  exact ⟨n, es, hn, hes⟩

/-- **A directory lists the directories in it**, and no links to others. -/
theorem mem_readdirSync_directory (h : root.Valid) :
    (∃ d ∈ (readdirSync root p).getD [], d.isDirectory = true ∧ d.name = name) ↔
      root.shapeAt (p ++ [name]) = some .directory := by
  have hdirent : ∀ e : String × Node, ((dirent e).isDirectory = true ∧ (dirent e).name = name) ↔
      e.1 = name ∧ e.2.shape = .directory := by
    rintro ⟨x, n⟩
    cases n <;> simp [dirent, Node.shape]
  constructor
  · rintro ⟨d, hd, hdirectory⟩
    cases hlist : (root.lookup p).bind (·.entries) with
    | none => simp [readdirSync, hlist] at hd
    | some es =>
      obtain ⟨n, hn, hes⟩ := Option.bind_eq_some_iff.1 hlist
      simp only [readdirSync, hlist, Option.map_some, Option.getD_some] at hd
      obtain ⟨e, he, rfl⟩ := List.mem_map.1 hd
      obtain ⟨rfl, hshape⟩ := (hdirent e).1 hdirectory
      exact (h.shapeAt_entry hn hes).2 ⟨e.2, he, hshape⟩
  · intro hshape
    obtain ⟨n, es, hn, hes⟩ := Node.entries_of_shapeAt hshape
    obtain ⟨n', hmem, hshape⟩ := (h.shapeAt_entry hn hes).1 hshape
    refine ⟨dirent (name, n'), ?_, (hdirent (name, n')).2 ⟨rfl, hshape⟩⟩
    simp only [readdirSync, hn, Option.bind_some, hes, Option.map_some, Option.getD_some]
    exact List.mem_map_of_mem hmem

theorem readFileSync_of_shapeAt {content : String} (h : root.shapeAt p = some (.file content)) :
    readFileSync root p = some content := by
  obtain ⟨n, hn, hshape⟩ := Option.map_eq_some_iff.1 h
  obtain rfl := Node.shape_file.1 hshape
  simp [readFileSync, hn, Node.resolve]

theorem Relisted.valid (h : Relisted n n') (hv : n.Valid) : n'.Valid := by
  induction h with
  | refl n => exact hv
  | reorder hperm =>
    cases hv with
    | directory hnodup hnames hvalid =>
      refine .directory ((hperm.map _).nodup hnodup) (fun e he => ?_) fun e he => ?_
      · exact hnames e (hperm.mem_iff.2 he)
      · exact hvalid e (hperm.mem_iff.2 he)
  | @entry n n' before after name h ih =>
    cases hv with
    | directory hnodup hnames hvalid =>
      have hn : n.Valid := hvalid (name, n) (by simp)
      refine .directory (by simpa using hnodup) (fun e he => ?_) fun e he => ?_
      · simp only [List.mem_append, List.mem_cons] at he hnames
        rcases he with he | rfl | he
        · exact hnames e (Or.inl he)
        · exact hnames (name, n) (Or.inr (Or.inl rfl))
        · exact hnames e (Or.inr (Or.inr he))
      · simp only [List.mem_append, List.mem_cons] at he hvalid
        rcases he with he | rfl | he
        · exact hvalid e (Or.inl he)
        · exact ih hn
        · exact hvalid e (Or.inr (Or.inr he))
  | link h ih =>
    cases hv with
    | link hvalid => exact .link (ih hvalid)
  | trans h h' ih ih' => exact ih' (ih hv)

/-- The order of the entries does not matter for which one is found. -/
theorem find_perm {es' : List (String × Node)} (hnodup : (es.map (·.1)).Nodup) (h : es.Perm es') :
    es'.find? (fun e => e.1 = name) = es.find? fun e => e.1 = name := by
  have hnodup' : (es'.map (·.1)).Nodup := (h.map _).nodup hnodup
  refine Option.ext fun e => ?_
  constructor
  · intro he
    obtain ⟨hmem, rfl⟩ := Table.find_key_some he
    exact Table.find_key_of_mem hnodup (h.mem_iff.2 hmem)
  · intro he
    obtain ⟨hmem, rfl⟩ := Table.find_key_some he
    exact Table.find_key_of_mem hnodup' (h.mem_iff.1 hmem)

theorem shapeAt_directory : (Node.directory es).shapeAt (name :: p) =
    (es.find? fun e => e.1 = name).bind fun e => e.2.shapeAt p := by
  simp only [Node.shapeAt, Node.lookup, Node.entries, Node.resolve, Option.bind_some, Option.map_bind]
  rfl

/-- **The same files and directories are at the same paths**, in whatever order they are listed. -/
theorem Relisted.shapeAt (h : Relisted n n') (hv : n.Valid) (p : Path) : n'.shapeAt p = n.shapeAt p := by
  induction h generalizing p with
  | refl n => rfl
  | reorder hperm =>
    cases p with
    | nil => rfl
    | cons name p =>
      cases hv with
      | directory hnodup hnames hvalid => rw [shapeAt_directory, shapeAt_directory, find_perm hnodup hperm]
  | @entry n n' before after entryName h ih =>
    cases p with
    | nil => rfl
    | cons name p =>
      cases hv with
      | directory hnodup hnames hvalid =>
        have hchild := ih (hvalid (entryName, n) (by simp)) p
        rw [shapeAt_directory, shapeAt_directory, List.find?_append, List.find?_append]
        by_cases hname : entryName = name
        · cases hfind : before.find? (fun e => e.1 = name) <;> simp [hname, hchild]
        · simp [hname]
  | link h ih =>
    cases hv with
    | link hvalid =>
      cases p with
      | nil => rfl
      | cons name p => exact ih hvalid (name :: p)
  | trans h h' ih ih' => exact (ih' (h.valid hv) p).trans (ih hv p)

end

end FileTree
