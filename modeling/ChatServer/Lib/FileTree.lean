import ChatServer.Lib.OrderedDict

/-!
# A tree of files

Directories and text files under `/`, without links.  A path is the list of its
components from the root and may contain `..`; following it one component at a
time is `FileTree.walk`, which needs a directory wherever it passes.

An `Action` is one call of the operating system.  It may be cut short by a
`Fault`, which for a write can leave a part of the text behind, and
`FileTree.exec` runs actions in order until one fails.  The two facts about it
are the frame `node?_exec`, what lies outside every target is untouched
however the run ends, and `read_exec`, what a run that succeeds leaves to be
read.
-/

/-- A directory or a file with its text. -/
inductive FileNode where
  | dir
  | file (content : String)
deriving DecidableEq, Repr

/-- What the operating system reports. -/
inductive Errno where
  | notFound
  | alreadyExists
  | notADirectory
  | isADirectory
  | denied
  | other
deriving DecidableEq, Repr

/-- The directories and files below the root. -/
structure FileTree where
  /-- What is at each path; the root itself is not listed. -/
  nodes : OrderedDict (List String) FileNode
deriving DecidableEq

namespace FileTree

/-! ## Looking up -/

/-- What is at a path without `..`. -/
def node? (t : FileTree) (p : List String) : Option FileNode :=
  if p = [] then some .dir else t.nodes.get? p

/-- Follow a path from a directory; every component but the last has to lead to a
directory. -/
def walk (t : FileTree) : List String → List String → Except Errno (List String)
  | cur, [] => .ok cur
  | cur, c :: cs =>
      match t.node? cur with
      | none => .error .notFound
      | some (.file _) => .error .notADirectory
      | some .dir => if c = ".." then t.walk cur.dropLast cs else t.walk (cur ++ [c]) cs

/-- Follow a path from the root. -/
def resolve (t : FileTree) (p : List String) : Except Errno (List String) := t.walk [] p

/-- Whether something is at a path. -/
def pathExists (t : FileTree) (p : List String) : Bool :=
  match t.resolve p with
  | .ok q => (t.node? q).isSome
  | .error _ => false

/-- Read a file. -/
def read (t : FileTree) (p : List String) : Except Errno String :=
  match t.resolve p with
  | .error e => .error e
  | .ok q =>
      match t.node? q with
      | none => .error .notFound
      | some .dir => .error .isADirectory
      | some (.file content) => .ok content

/-- The names of the directories in a directory. -/
def subdirs (t : FileTree) (p : List String) : List String :=
  t.nodes.keys.filterMap fun q ↦
    match q.getLast? with
    | some name => if q = p ++ [name] ∧ t.node? q = some .dir then some name else none
    | none => none

/-- A path in which no component leads upwards. -/
def Plain (p : List String) : Prop := ∀ c ∈ p, c ≠ ".."

instance (p : List String) : Decidable (Plain p) := inferInstanceAs (Decidable (∀ c ∈ p, c ≠ ".."))

theorem Plain.append {p q : List String} (hp : Plain p) (hq : Plain q) : Plain (p ++ q) := by
  intro c hc
  rcases List.mem_append.mp hc with hc | hc
  · exact hp c hc
  · exact hq c hc

theorem walk_cons_of_plain {t : FileTree} {cur cs : List String} {c : String} (hc : c ≠ "..") :
    t.walk cur (c :: cs) =
      match t.node? cur with
      | none => .error .notFound
      | some (.file _) => .error .notADirectory
      | some .dir => t.walk (cur ++ [c]) cs := by
  rw [walk]
  split
  · rfl
  · rfl
  · rw [if_neg hc]

/-- A plain path leads to itself. -/
theorem walk_eq_ok {t : FileTree} {cur cs q : List String} (hcs : Plain cs)
    (h : t.walk cur cs = .ok q) : q = cur ++ cs := by
  induction cs generalizing cur with
  | nil =>
      cases h
      exact (List.append_nil _).symm
  | cons c cs ih =>
      rw [walk_cons_of_plain (hcs c List.mem_cons_self)] at h
      split at h
      · cases h
      · cases h
      · rw [ih (fun d hd ↦ hcs d (List.mem_cons_of_mem _ hd)) h, List.append_assoc]
        rfl

/-- Following a plain path only looks at what is on the way. -/
theorem walk_congr {t t' : FileTree} {cur cs : List String} (hcs : Plain cs)
    (h : ∀ q, q <+: cur ++ cs → q ≠ cur ++ cs → t'.node? q = t.node? q) :
    t'.walk cur cs = t.walk cur cs := by
  induction cs generalizing cur with
  | nil => rfl
  | cons c cs ih =>
      have hcur : t'.node? cur = t.node? cur := by
        refine h cur (List.prefix_append _ _) fun hself ↦ ?_
        have hlength := congrArg List.length hself
        rw [List.length_append, List.length_cons] at hlength
        omega
      rw [walk_cons_of_plain (hcs c List.mem_cons_self),
        walk_cons_of_plain (hcs c List.mem_cons_self), hcur]
      split
      · rfl
      · rfl
      · refine ih (fun d hd ↦ hcs d (List.mem_cons_of_mem _ hd)) fun q hq hne ↦ h q ?_ ?_
        · rwa [List.append_assoc] at hq
        · rwa [List.append_assoc] at hne

/-- Reading a plain path only looks at it and at what is on the way. -/
theorem read_congr {t t' : FileTree} {p : List String} (hp : Plain p)
    (h : ∀ q, q <+: p → t'.node? q = t.node? q) : t'.read p = t.read p := by
  have hresolve : t'.resolve p = t.resolve p := walk_congr hp fun q hq _ ↦ h q hq
  rw [read, read, hresolve]
  cases hr : t.resolve p with
  | error e => rfl
  | ok q =>
      obtain rfl : q = p := walk_eq_ok hp hr
      simp only
      rw [h q List.prefix_rfl]

/-! ## Changing -/

/-- A call of the operating system that changes the tree. -/
inductive Action where
  /-- `mkdir`. -/
  | mkdir (p : List String)
  /-- `makedirs(exist_ok=True)` on a directory whose parent exists. -/
  | ensureDir (p : List String)
  /-- Open for writing, write a text, close. -/
  | write (p : List String) (content : String)
deriving DecidableEq, Repr

/-- The path an action names. -/
def Action.path : Action → List String
  | mkdir p => p
  | ensureDir p => p
  | write p _ => p

/-- Put something at a path. -/
def put (t : FileTree) (p : List String) (n : FileNode) : FileTree := ⟨t.nodes.set p n⟩

theorem node?_put_of_ne (t : FileTree) {p q : List String} (n : FileNode) (h : p ≠ q) :
    (t.put p n).node? q = t.node? q := by
  rw [node?, node?, put, OrderedDict.get?_set_of_ne _ _ h]

theorem node?_put_self (t : FileTree) {p : List String} (n : FileNode) (h : p ≠ []) :
    (t.put p n).node? p = some n := by
  rw [node?, if_neg h, put, OrderedDict.get?_set_self]

/-- What an action does at the place its path leads to. -/
def Action.apply (t : FileTree) (q : List String) : Action → Except Errno FileTree
  | mkdir _ =>
      match t.node? q with
      | none => .ok (t.put q .dir)
      | some _ => .error .alreadyExists
  | ensureDir _ =>
      match t.node? q with
      | none => .ok (t.put q .dir)
      | some .dir => .ok t
      | some (.file _) => .error .alreadyExists
  | write _ content =>
      if t.node? q = some .dir then .error .isADirectory else .ok (t.put q (.file content))

/-- What an action does when nothing interferes. -/
def Action.run (t : FileTree) (a : Action) : Except Errno FileTree :=
  match t.resolve a.path with
  | .error e => .error e
  | .ok q => a.apply t q

/-- An action that succeeds changes nothing, or puts something where nothing was, or
a file in place of a file. -/
theorem run_ok {t t' : FileTree} {a : Action} (h : a.run t = .ok t') :
    ∃ q, t.resolve a.path = .ok q ∧
      (t' = t ∨ ∃ n, t' = t.put q n ∧ ∀ old, t.node? q = some old → old ≠ .dir ∧ n ≠ .dir) := by
  have hnew : ∀ {q : List String} {n : FileNode}, t.node? q = none →
      ∀ old, t.node? q = some old → old ≠ .dir ∧ n ≠ .dir := by
    intro q n hnone old hold
    rw [hnone] at hold
    cases hold
  unfold Action.run at h
  split at h
  · cases h
  · rename_i q hq
    refine ⟨q, hq, ?_⟩
    cases a with
    | mkdir p =>
        rw [Action.apply] at h
        split at h <;> cases h
        rename_i hnone
        exact Or.inr ⟨_, rfl, hnew hnone⟩
    | ensureDir p =>
        rw [Action.apply] at h
        split at h <;> cases h
        · rename_i hnone
          exact Or.inr ⟨_, rfl, hnew hnone⟩
        · exact Or.inl rfl
    | write p content =>
        rw [Action.apply] at h
        split at h <;> cases h
        rename_i hdir
        refine Or.inr ⟨_, rfl, fun old hold ↦ ⟨?_, FileNode.noConfusion⟩⟩
        rintro rfl
        exact hdir hold

/-- Something that goes wrong in the middle of an action. -/
structure Fault where
  errno : Errno
  /-- The part of the text a write leaves behind, if it got as far as opening the
  file. -/
  left : Option String := none
deriving DecidableEq, Repr

/-- A write of another text. -/
def Action.cutTo : Action → String → Option Action
  | write p _, content => some (write p content)
  | _, _ => none

/-- An action with or without a fault: the tree it leaves and the error it
reports. -/
def Action.runWith (t : FileTree) (a : Action) : Option Fault → FileTree × Option Errno
  | none =>
      match a.run t with
      | .ok t' => (t', none)
      | .error e => (t, some e)
  | some fault =>
      match fault.left.bind a.cutTo with
      | none => (t, some fault.errno)
      | some cut =>
          match cut.run t with
          | .ok t' => (t', some fault.errno)
          | .error e => (t, some e)

/-- Run actions in order until one fails; the `i`-th of `faults` strikes the `i`-th
action. -/
def exec (t : FileTree) : List Action → List (Option Fault) → FileTree × Option Errno
  | [], _ => (t, none)
  | a :: as, faults =>
      match a.runWith t faults.head?.join with
      | (t', some e) => (t', some e)
      | (t', none) => exec t' as faults.tail

/-- Remove what is at and below a path, or some of it. -/
def prune (t : FileTree) (p : List String) (removed : List String → Bool) : FileTree :=
  ⟨t.nodes.filterKeys fun q ↦ !(p.isPrefixOf q && removed q)⟩

/-- `shutil.rmtree`, which may fail after removing some of the tree. -/
def rmtree (t : FileTree) (p : List String) (fault : Option (Errno × (List String → Bool))) :
    FileTree × Option Errno :=
  match t.resolve p with
  | .error e => (t, some e)
  | .ok q =>
      match t.node? q with
      | none => (t, some .notFound)
      | some (.file _) => (t, some .notADirectory)
      | some .dir =>
          match fault with
          | none => (t.prune q fun _ ↦ true, none)
          | some (e, removed) => (t.prune q removed, some e)

/-! ## Frames -/

theorem node?_prune {t : FileTree} {p q : List String} (removed : List String → Bool)
    (h : ¬ p <+: q) : (t.prune p removed).node? q = t.node? q := by
  have hp : p.isPrefixOf q = false := by
    rw [Bool.eq_false_iff]
    exact fun hp ↦ h (List.isPrefixOf_iff_prefix.mp hp)
  rw [node?, node?, prune, OrderedDict.get?_filterKeys, hp, Bool.false_and, Bool.not_false,
    if_pos rfl]

/-- An action changes nothing but the path it names. -/
theorem node?_run {t t' : FileTree} {a : Action} (ha : Plain a.path) (h : a.run t = .ok t')
    {q : List String} (hq : a.path ≠ q) : t'.node? q = t.node? q := by
  obtain ⟨p, hp, rfl | ⟨n, rfl, -⟩⟩ := run_ok h
  · rfl
  · obtain rfl : p = a.path := walk_eq_ok ha hp
    exact node?_put_of_ne t n hq

theorem path_cutTo {a cut : Action} {content : String} (h : a.cutTo content = some cut) :
    cut.path = a.path := by
  cases a with
  | write p _ => cases h; rfl
  | _ => cases h

theorem node?_runWith {t : FileTree} {a : Action} (ha : Plain a.path) (fault : Option Fault)
    {q : List String} (hq : a.path ≠ q) : (a.runWith t fault).1.node? q = t.node? q := by
  cases fault with
  | none =>
      rw [Action.runWith]
      cases h : a.run t with
      | ok t' => exact node?_run ha h hq
      | error e => rfl
  | some fault =>
      rw [Action.runWith]
      split
      · rfl
      · rename_i cut hcut
        obtain ⟨content, -, hcut⟩ := Option.bind_eq_some_iff.mp hcut
        have hpath := path_cutTo hcut
        cases h : cut.run t with
        | ok t' => exact node?_run (hpath ▸ ha) h (hpath ▸ hq)
        | error e => rfl

/-- **Frame.**  However a run ends, it changes nothing but the paths its actions
name. -/
theorem node?_exec {t : FileTree} {as : List Action} (has : ∀ a ∈ as, Plain a.path)
    (faults : List (Option Fault)) {q : List String} (hq : ∀ a ∈ as, a.path ≠ q) :
    (t.exec as faults).1.node? q = t.node? q := by
  induction as generalizing t faults with
  | nil => rfl
  | cons a as ih =>
      have hstep := node?_runWith (t := t) (has a List.mem_cons_self) faults.head?.join
        (hq a List.mem_cons_self)
      rw [exec]
      split
      · rename_i t' e hrun
        rw [hrun] at hstep
        exact hstep
      · rename_i t' hrun
        rw [hrun] at hstep
        rw [ih (fun b hb ↦ has b (List.mem_cons_of_mem _ hb)) faults.tail
          fun b hb ↦ hq b (List.mem_cons_of_mem _ hb)]
        exact hstep

/-- **Frame.**  Removing a tree changes nothing outside it. -/
theorem node?_rmtree {t : FileTree} {p : List String} (hp : Plain p)
    (fault : Option (Errno × (List String → Bool))) {q : List String} (hq : ¬ p <+: q) :
    (t.rmtree p fault).1.node? q = t.node? q := by
  unfold rmtree
  split
  · rfl
  · rename_i p' hp'
    obtain rfl : p' = p := walk_eq_ok hp hp'
    split
    · rfl
    · rfl
    · split
      · exact node?_prune _ hq
      · exact node?_prune _ hq

/-- Which directories there are in a directory depends on what is in it. -/
theorem mem_subdirs_iff {t : FileTree} {p : List String} {name : String} :
    name ∈ t.subdirs p ↔ t.node? (p ++ [name]) = some .dir := by
  rw [subdirs, List.mem_filterMap]
  constructor
  · rintro ⟨q, -, hq⟩
    split at hq
    · rename_i last _
      split at hq
      · rename_i hcond
        cases hq
        exact hcond.1 ▸ hcond.2
      · cases hq
    · cases hq
  · intro h
    refine ⟨p ++ [name], ?_, ?_⟩
    · rw [node?, if_neg (by simp)] at h
      by_contra hnot
      rw [OrderedDict.get?_eq_none_iff.mpr hnot] at h
      cases h
    · rw [List.getLast?_concat]
      exact if_pos ⟨rfl, h⟩

/-! ## Reading back -/

/-- A path that ends in a name leads to that name in the directory its front leads
to. -/
theorem walk_concat_iff {t : FileTree} {cur cs q : List String} {c : String} (hc : c ≠ "..") :
    t.walk cur (cs ++ [c]) = .ok q ↔
      ∃ d, t.walk cur cs = .ok d ∧ t.node? d = some .dir ∧ q = d ++ [c] := by
  induction cs generalizing cur with
  | nil =>
      rw [List.nil_append, walk_cons_of_plain hc]
      constructor
      · intro h
        split at h
        · cases h
        · cases h
        · rename_i hdir
          cases h
          exact ⟨cur, rfl, hdir, rfl⟩
      · rintro ⟨d, hd, hdir, rfl⟩
        cases hd
        rw [hdir]
        rfl
  | cons e cs ih =>
      rw [List.cons_append, walk, walk]
      have hfail : ∀ e : Errno, (Except.error e : Except Errno (List String)) = .ok q ↔
          ∃ d, (Except.error e : Except Errno (List String)) = .ok d ∧ t.node? d = some .dir ∧
            q = d ++ [c] := by
        intro e
        constructor
        · intro h
          cases h
        · rintro ⟨d, h, -, -⟩
          cases h
      split
      · exact hfail _
      · exact hfail _
      · split
        · exact ih
        · exact ih

/-- Whatever is at a path of one tree, something of the same kind is there in
another. -/
def KeepsKinds (t t' : FileTree) : Prop :=
  ∀ q n, t.node? q = some n → ∃ n', t'.node? q = some n' ∧ (n' = .dir ↔ n = .dir)

theorem KeepsKinds.refl (t : FileTree) : KeepsKinds t t := fun _ n h ↦ ⟨n, h, Iff.rfl⟩

theorem KeepsKinds.trans {t₁ t₂ t₃ : FileTree} (h : KeepsKinds t₁ t₂) (h' : KeepsKinds t₂ t₃) :
    KeepsKinds t₁ t₃ := by
  intro q n hq
  obtain ⟨n', hq', hn'⟩ := h q n hq
  obtain ⟨n'', hq'', hn''⟩ := h' q n' hq'
  exact ⟨n'', hq'', hn''.trans hn'⟩

/-- A path leads to the same place. -/
theorem KeepsKinds.walk {t t' : FileTree} (h : KeepsKinds t t') {cur cs q : List String}
    (hw : t.walk cur cs = .ok q) : t'.walk cur cs = .ok q := by
  induction cs generalizing cur with
  | nil => exact hw
  | cons c cs ih =>
      rw [FileTree.walk] at hw ⊢
      split at hw
      · cases hw
      · cases hw
      · rename_i hdir
        obtain ⟨n', hn', hkind⟩ := h cur _ hdir
        rw [hn', hkind.mpr rfl]
        split at hw
        · rename_i hc
          simp only [if_pos hc]
          exact ih hw
        · rename_i hc
          simp only [if_neg hc]
          exact ih hw

/-- What could be read can still be read. -/
theorem KeepsKinds.read {t t' : FileTree} (h : KeepsKinds t t') {p : List String}
    {content : String} (hr : t.read p = .ok content) : ∃ content', t'.read p = .ok content' := by
  unfold FileTree.read at hr
  split at hr
  · cases hr
  · rename_i q hq
    split at hr
    · cases hr
    · cases hr
    · rename_i content₀ hnode
      obtain ⟨n', hn', hkind⟩ := h q _ hnode
      rw [FileTree.read, show t'.resolve p = .ok q from h.walk hq]
      cases n' with
      | dir => exact FileNode.noConfusion (hkind.mp rfl)
      | file content' => exact ⟨content', by simp only [hn']⟩

theorem keepsKinds_run {t t' : FileTree} {a : Action} (h : a.run t = .ok t') :
    KeepsKinds t t' := by
  obtain ⟨p, -, rfl | ⟨n, rfl, hold⟩⟩ := run_ok h
  · exact .refl _
  · intro q old hq
    by_cases hpq : p = q
    · subst hpq
      obtain ⟨hdir, hn⟩ := hold old hq
      have hp : p ≠ [] := by
        rintro rfl
        exact hdir (Option.some.inj hq).symm
      exact ⟨n, node?_put_self t n hp, iff_of_false hn hdir⟩
    · exact ⟨old, (node?_put_of_ne t n hpq).trans hq, Iff.rfl⟩

/-- A write that succeeds puts its text. -/
theorem run_write {t t' : FileTree} {p : List String} {content : String}
    (h : (Action.write p content).run t = .ok t') :
    ∃ q, t.resolve p = .ok q ∧ t' = t.put q (.file content) ∧ q ≠ [] := by
  unfold Action.run at h
  split at h
  · cases h
  · rename_i q hq
    rw [Action.apply] at h
    split at h <;> cases h
    rename_i hdir
    refine ⟨q, hq, rfl, ?_⟩
    rintro rfl
    exact hdir rfl

/-- What was written can be read. -/
theorem read_run_write {t t' : FileTree} {p : List String} {content : String}
    (h : (Action.write p content).run t = .ok t') : t'.read p = .ok content := by
  have hkeep := keepsKinds_run h
  obtain ⟨q, hq, rfl, hq0⟩ := run_write h
  rw [FileTree.read, show FileTree.resolve _ p = .ok q from hkeep.walk hq]
  simp only [node?_put_self _ _ hq0]

theorem exec_cons_ok {t t' : FileTree} {a : Action} {as : List Action}
    {faults : List (Option Fault)} (h : t.exec (a :: as) faults = (t', none)) :
    ∃ t₁, a.run t = .ok t₁ ∧ t₁.exec as faults.tail = (t', none) := by
  rw [exec] at h
  split at h
  · cases h
  · rename_i t₁ hrun
    refine ⟨t₁, ?_, h⟩
    cases hf : faults.head?.join with
    | none =>
        rw [hf, Action.runWith] at hrun
        split at hrun
        · rename_i t₂ hok
          cases hrun
          exact hok
        · cases hrun
    | some fault =>
        rw [hf, Action.runWith] at hrun
        split at hrun
        · cases hrun
        · split at hrun <;> cases hrun

theorem exec_append_ok {t t' : FileTree} {as bs : List Action} {faults : List (Option Fault)}
    (h : t.exec (as ++ bs) faults = (t', none)) :
    ∃ t₁ faults₁, t.exec as faults = (t₁, none) ∧ t₁.exec bs faults₁ = (t', none) := by
  induction as generalizing t faults with
  | nil => exact ⟨t, faults, rfl, h⟩
  | cons a as ih =>
      rw [List.cons_append, exec] at h
      rw [exec]
      split at h
      · cases h
      · exact ih h

theorem keepsKinds_exec {t t' : FileTree} {as : List Action} {faults : List (Option Fault)}
    (h : t.exec as faults = (t', none)) : KeepsKinds t t' := by
  induction as generalizing t faults with
  | nil =>
      cases h
      exact .refl _
  | cons a as ih =>
      obtain ⟨t₁, hrun, hrest⟩ := exec_cons_ok h
      exact (keepsKinds_run hrun).trans (ih hrest)

/-- After a run that succeeds every file it wrote can be read. -/
theorem exists_read_exec {t t' : FileTree} {as : List Action} {faults : List (Option Fault)}
    (h : t.exec as faults = (t', none)) {p : List String} {content : String}
    (ha : .write p content ∈ as) : ∃ content', t'.read p = .ok content' := by
  induction as generalizing t faults with
  | nil => exact absurd ha List.not_mem_nil
  | cons a as ih =>
      obtain ⟨t₁, hrun, hrest⟩ := exec_cons_ok h
      rcases List.mem_cons.mp ha with rfl | ha
      · exact (keepsKinds_exec hrest).read (read_run_write hrun)
      · exact ih hrest ha

/-- An action on a directory, or on another name in it. -/
def Action.Beside (dir : List String) (name : String) (a : Action) : Prop :=
  a.path = dir ∨ ∃ b, a.path = dir ++ [b] ∧ b ≠ ".." ∧ b ≠ name

/-- An action beside a file leaves its text. -/
theorem read_run_beside {t t' : FileTree} {dir : List String} {name content : String} {a : Action}
    (hname : name ≠ "..") (hbeside : a.Beside dir name) (h : a.run t = .ok t')
    (hread : t.read (dir ++ [name]) = .ok content) : t'.read (dir ++ [name]) = .ok content := by
  have hkeep := keepsKinds_run h
  obtain ⟨p, hp, rfl | ⟨n, rfl, -⟩⟩ := run_ok h
  · exact hread
  · unfold FileTree.read at hread ⊢
    cases hq : t.resolve (dir ++ [name]) with
    | error e =>
        rw [hq] at hread
        cases hread
    | ok q =>
        obtain ⟨d, hd, -, rfl⟩ := (walk_concat_iff hname).mp hq
        -- both paths are looked up in the same directory
        have hne : p ≠ d ++ [name] := by
          rintro rfl
          rcases hbeside with hpath | ⟨b, hpath, hb, hbname⟩
          · rw [hpath] at hp
            have hself := Except.ok.inj (hd.symm.trans hp)
            exact absurd (congrArg List.length hself) (by simp)
          · rw [hpath] at hp
            obtain ⟨d', hd', -, heq⟩ := (walk_concat_iff hb).mp hp
            obtain rfl : d = d' := Except.ok.inj (hd.symm.trans hd')
            exact hbname (List.singleton_inj.mp (List.append_cancel_left heq)).symm
        rw [hq] at hread
        rw [show (t.put p n).resolve (dir ++ [name]) = .ok (d ++ [name]) from hkeep.walk hq]
        simp only [node?_put_of_ne _ _ hne]
        exact hread

theorem read_exec_beside {t t' : FileTree} {dir : List String} {name content : String}
    {as : List Action} {faults : List (Option Fault)} (hname : name ≠ "..")
    (hbeside : ∀ a ∈ as, a.Beside dir name) (h : t.exec as faults = (t', none))
    (hread : t.read (dir ++ [name]) = .ok content) : t'.read (dir ++ [name]) = .ok content := by
  induction as generalizing t faults with
  | nil =>
      cases h
      exact hread
  | cons a as ih =>
      obtain ⟨t₁, hrun, hrest⟩ := exec_cons_ok h
      refine ih (fun a' ha' ↦ hbeside a' (List.mem_cons_of_mem a ha')) hrest ?_
      exact read_run_beside hname (hbeside a List.mem_cons_self) hrun hread

/-- **Reading back.**  A run that succeeds in writing two files of one directory
leaves both to be read. -/
theorem read_exec {t t' : FileTree} {faults : List (Option Fault)} {dir : List String}
    {a b contentA contentB : String} (ha : a ≠ "..") (hb : b ≠ "..") (hab : a ≠ b)
    (h : t.exec [.write (dir ++ [a]) contentA, .write (dir ++ [b]) contentB] faults =
      (t', none)) :
    t'.read (dir ++ [a]) = .ok contentA ∧ t'.read (dir ++ [b]) = .ok contentB := by
  obtain ⟨t₁, hrunA, h⟩ := exec_cons_ok h
  obtain ⟨t₂, hrunB, h⟩ := exec_cons_ok h
  cases h
  constructor
  · exact read_run_beside ha (.inr ⟨b, rfl, hb, hab.symm⟩) hrunB (read_run_write hrunA)
  · exact read_run_write hrunB

/-! ## Writing over files -/

/-- There is a file at a path without `..`. -/
def HasFile (t : FileTree) (q : List String) : Prop := ∃ content, t.node? q = some (.file content)

theorem hasFile_put_file {t : FileTree} {p q : List String} {content : String}
    (hp : t.HasFile p) : (t.put p (.file content)).HasFile q ↔ t.HasFile q := by
  by_cases hpq : p = q
  · subst hpq
    have hne : p ≠ [] := by
      rintro rfl
      obtain ⟨content', hdir⟩ := hp
      cases hdir
    exact iff_of_true ⟨content, node?_put_self t _ hne⟩ hp
  · rw [HasFile, HasFile, node?_put_of_ne t _ hpq]

theorem hasFile_put_dir {t : FileTree} {p q : List String} (hp : t.node? p = none) :
    (t.put p .dir).HasFile q ↔ t.HasFile q := by
  by_cases hpq : p = q
  · subst hpq
    have hne : p ≠ [] := by
      rintro rfl
      cases hp
    refine iff_of_false ?_ ?_
    · rintro ⟨content, hfile⟩
      cases (node?_put_self t .dir hne).symm.trans hfile
    · rintro ⟨content, hfile⟩
      cases hp.symm.trans hfile
  · rw [HasFile, HasFile, node?_put_of_ne t _ hpq]

/-- What is written is there already. -/
def Action.Overwrites (t : FileTree) : Action → Prop
  | .write p _ => ∃ content, t.read p = .ok content
  | _ => True

theorem hasFile_run {t t' : FileTree} {a : Action} (ha : a.Overwrites t) (h : a.run t = .ok t')
    (q : List String) : t'.HasFile q ↔ t.HasFile q := by
  cases a with
  | write p content =>
      obtain ⟨r, hr, rfl, -⟩ := run_write h
      obtain ⟨old, hread⟩ := ha
      rw [FileTree.read, hr] at hread
      dsimp only at hread
      split at hread
      · cases hread
      · cases hread
      · rename_i old' hnode
        exact hasFile_put_file ⟨old', hnode⟩
  | mkdir p | ensureDir p =>
      unfold Action.run at h
      split at h
      · cases h
      · rw [Action.apply] at h
        split at h <;> cases h
        all_goals first
          | exact Iff.rfl
          | exact hasFile_put_dir ‹_›

/-- A run that writes only where files are makes no file. -/
theorem hasFile_exec {t t' : FileTree} {as : List Action} {faults : List (Option Fault)}
    (has : ∀ a ∈ as, a.Overwrites t) (h : t.exec as faults = (t', none)) (q : List String) :
    t'.HasFile q ↔ t.HasFile q := by
  induction as generalizing t faults with
  | nil =>
      cases h
      exact Iff.rfl
  | cons a as ih =>
      obtain ⟨t₁, hrun, hrest⟩ := exec_cons_ok h
      have hnext : ∀ a' ∈ as, a'.Overwrites t₁ := by
        intro a' ha'
        have hover := has a' (List.mem_cons_of_mem a ha')
        cases a' with
        | write p content =>
            obtain ⟨old, hread⟩ := hover
            exact (keepsKinds_run hrun).read hread
        | mkdir p | ensureDir p => trivial
      exact (ih hnext hrest).trans (hasFile_run (has a List.mem_cons_self) hrun q)

/-! ## What has gone -/

/-- A path is followed in two parts. -/
theorem walk_append (t : FileTree) (cur cs ds : List String) :
    t.walk cur (cs ++ ds) = (t.walk cur cs).bind fun q ↦ t.walk q ds := by
  induction cs generalizing cur with
  | nil => rfl
  | cons c cs ih =>
      rw [List.cons_append, walk, walk]
      split
      · rfl
      · rfl
      · split
        · exact ih _
        · exact ih _

/-- Nothing is at a path, and nothing but that is in the way of finding it. -/
def Absent (t : FileTree) (p : List String) : Prop :=
  t.resolve p = .error .notFound ∨ ∃ q, t.resolve p = .ok q ∧ t.node? q = none

theorem Absent.pathExists {t : FileTree} {p : List String} (h : t.Absent p) :
    t.pathExists p = false := by
  rw [FileTree.pathExists]
  rcases h with he | ⟨q, hq, hnone⟩
  · rw [he]
  · rw [hq]
    simp only [hnone, Option.isSome_none]

/-- What is below it cannot be found either. -/
theorem Absent.read {t : FileTree} {p : List String} (h : t.Absent p) {c : String}
    (hc : c ≠ "..") : t.read (p ++ [c]) = .error .notFound := by
  have hresolve : t.resolve (p ++ [c]) = .error .notFound := by
    rw [resolve, walk_append]
    rcases h with he | ⟨q, hq, hnone⟩
    · rw [show t.walk [] p = .error .notFound from he]
      rfl
    · rw [show t.walk [] p = .ok q from hq]
      show t.walk q [c] = _
      rw [walk_cons_of_plain hc, hnone]
  rw [FileTree.read, hresolve]

/-- Removing what is absent fails and changes nothing. -/
theorem Absent.rmtree {t : FileTree} {p : List String} (h : t.Absent p)
    (fault : Option (Errno × (List String → Bool))) :
    t.rmtree p fault = (t, some .notFound) := by
  rw [FileTree.rmtree]
  rcases h with he | ⟨q, hq, hnone⟩
  · rw [he]
  · rw [hq]
    simp only [hnone]

/-- What is absent can be made, unless the way to it is missing. -/
theorem Absent.mkdir {t : FileTree} {p : List String} (h : t.Absent p) :
    (Action.mkdir p).run t ≠ .error .alreadyExists := by
  rw [Action.run]
  rcases h with he | ⟨q, hq, hnone⟩
  · rw [show t.resolve (Action.mkdir p).path = .error .notFound from he]
    nofun
  · rw [show t.resolve (Action.mkdir p).path = .ok q from hq]
    simp only [Action.apply, hnone]
    nofun

theorem Absent.exec_mkdir {t t' : FileTree} {p : List String} (h : t.Absent p) {e : Errno}
    (hrun : t.exec [.mkdir p] [] = (t', some e)) : e ≠ .alreadyExists := by
  rintro rfl
  refine h.mkdir ?_
  rw [exec, show ([] : List (Option Fault)).head?.join = none from rfl, Action.runWith] at hrun
  cases hmkdir : (Action.mkdir p).run t with
  | error e =>
      rw [hmkdir] at hrun
      cases hrun
      rfl
  | ok t₁ =>
      rw [hmkdir] at hrun
      cases hrun

/-- After something is removed a path leads where it led, or to nothing. -/
theorem walk_prune {t : FileTree} {p cur cs q : List String} {removed : List String → Bool}
    (h : t.walk cur cs = .ok q) :
    (t.prune p removed).walk cur cs = .ok q ∨
      (t.prune p removed).walk cur cs = .error .notFound := by
  induction cs generalizing cur with
  | nil => exact Or.inl h
  | cons c cs ih =>
      rw [walk] at h ⊢
      split at h
      · cases h
      · cases h
      · rename_i hdir
        have hnode : (t.prune p removed).node? cur = some .dir ∨
            (t.prune p removed).node? cur = none := by
          by_cases hcur : cur = []
          · exact Or.inl (if_pos hcur)
          · have hkept : (t.prune p removed).node? cur =
                if !(p.isPrefixOf cur && removed cur) then t.node? cur else none := by
              rw [node?, node?, if_neg hcur, if_neg hcur, prune, OrderedDict.get?_filterKeys]
            rw [hkept]
            split
            · exact Or.inl hdir
            · exact Or.inr rfl
        rcases hnode with hnode | hnode
        · rw [hnode]
          simp only
          split at h
          · rename_i hc
            rw [if_pos hc]
            exact ih h
          · rename_i hc
            rw [if_neg hc]
            exact ih h
        · rw [hnode]
          exact Or.inr rfl

theorem node?_prune_self {t : FileTree} {q : List String} (hq : q ≠ []) :
    (t.prune q fun _ ↦ true).node? q = none := by
  rw [node?, if_neg hq, prune, OrderedDict.get?_filterKeys, if_neg]
  simp

/-- What was removed is absent. -/
theorem absent_rmtree {t t' : FileTree} {c : String} {cs : List String} (hc : c ≠ "..")
    (h : t.rmtree (c :: cs) none = (t', none)) : t'.Absent (c :: cs) := by
  rw [rmtree] at h
  split at h
  · cases h
  · rename_i q hq
    split at h
    · cases h
    · cases h
    · cases h
      rcases @walk_prune t q [] (c :: cs) q (fun _ ↦ true) hq with hok | hgone
      · refine Or.inr ⟨q, hok, node?_prune_self ?_⟩
        -- the root itself stays, but then the first component of the path is gone
        rintro rfl
        rw [walk_cons_of_plain hc] at hok
        cases cs with
        | nil => cases hok
        | cons d ds =>
            have hfirst : (t.prune [] fun _ ↦ true).node? [c] = none := by
              rw [node?, if_neg (List.cons_ne_nil c []), prune, OrderedDict.get?_filterKeys, if_neg]
              simp
            have hroot : (t.prune [] fun _ ↦ true).node? [] = some .dir := rfl
            rw [hroot] at hok
            simp only [List.nil_append] at hok
            rw [walk, hfirst] at hok
            cases hok
      · exact Or.inl hgone

theorem rmtree_ok_fault {t t' : FileTree} {p : List String}
    {fault : Option (Errno × (List String → Bool))} (h : t.rmtree p fault = (t', none)) :
    fault = none := by
  cases fault with
  | none => rfl
  | some fault =>
      rw [rmtree] at h
      split at h
      · cases h
      · split at h <;> cases h

/-- What was removed, or not found before anything was removed, is absent. -/
theorem absent_of_rmtree {t t' : FileTree} {c : String} {cs : List String} (hc : c ≠ "..")
    {fault : Option (Errno × (List String → Bool))}
    (hfault : ∀ removed, fault ≠ some (.notFound, removed))
    (h : t.rmtree (c :: cs) fault = (t', none) ∨
      t.rmtree (c :: cs) fault = (t', some .notFound)) : t'.Absent (c :: cs) := by
  rcases h with h | h
  · obtain rfl := rmtree_ok_fault h
    exact absent_rmtree hc h
  · rw [rmtree] at h
    split at h
    · rename_i hresolve
      cases h
      exact Or.inl hresolve
    · rename_i q hq
      split at h
      · rename_i hnode
        cases h
        exact Or.inr ⟨q, hq, hnode⟩
      · cases h
      · split at h
        · cases h
        · cases h
          exact absurd rfl (hfault _)

/-! ## What runs keep, however they end -/

theorem pathExists_of_node {t : FileTree} {p q : List String} {n : FileNode}
    (hq : t.resolve p = .ok q) (hn : t.node? q = some n) : t.pathExists p = true := by
  rw [FileTree.pathExists, hq]
  simp only [hn, Option.isSome_some]

theorem KeepsKinds.pathExists {t t' : FileTree} (h : KeepsKinds t t') {p : List String}
    (hp : t.pathExists p = true) : t'.pathExists p = true := by
  rw [FileTree.pathExists] at hp
  split at hp
  · rename_i q hq
    obtain ⟨n, hn⟩ := Option.isSome_iff_exists.mp hp
    obtain ⟨n', hn', -⟩ := h q n hn
    exact pathExists_of_node (h.walk hq) hn'
  · cases hp

theorem keepsKinds_runWith (t : FileTree) (a : Action) (fault : Option Fault) :
    KeepsKinds t (a.runWith t fault).1 := by
  cases fault with
  | none =>
      rw [Action.runWith]
      cases h : a.run t with
      | ok t' => exact keepsKinds_run h
      | error e => exact .refl t
  | some fault =>
      rw [Action.runWith]
      split
      · exact .refl t
      · rename_i cut _
        cases h : cut.run t with
        | ok t' => exact keepsKinds_run h
        | error e => exact .refl t

/-- However a run ends, what was there is there, and of the same kind. -/
theorem KeepsKinds.exec (t : FileTree) (as : List Action) (faults : List (Option Fault)) :
    KeepsKinds t (t.exec as faults).1 := by
  induction as generalizing t faults with
  | nil => exact .refl t
  | cons a as ih =>
      have hstep := keepsKinds_runWith t a faults.head?.join
      rw [FileTree.exec]
      split
      · rename_i t' e hrun
        rw [hrun] at hstep
        exact hstep
      · rename_i t' hrun
        rw [hrun] at hstep
        exact hstep.trans (ih t' faults.tail)

/-- Making a directory makes it, or fails and changes nothing. -/
theorem exec_mkdir (t : FileTree) (p : List String) (faults : List (Option Fault)) :
    (∃ t', t.exec [.mkdir p] faults = (t', none) ∧
        ∃ q, t'.resolve p = .ok q ∧ t'.node? q = some .dir) ∨
      ∃ e, t.exec [.mkdir p] faults = (t, some e) := by
  cases hfault : faults.head?.join with
  | some fault =>
      refine Or.inr ⟨fault.errno, ?_⟩
      rw [exec, hfault, Action.runWith]
      cases hleft : fault.left <;> rfl
  | none =>
      cases hrun : (Action.mkdir p).run t with
      | error e =>
          refine Or.inr ⟨e, ?_⟩
          rw [exec, hfault, Action.runWith]
          simp only [hrun]
      | ok t' =>
          refine Or.inl ⟨t', ?_, ?_⟩
          · rw [exec, hfault, Action.runWith]
            simp only [hrun]
            rfl
          · have hkeep := keepsKinds_run hrun
            unfold Action.run at hrun
            split at hrun
            · cases hrun
            · rename_i q hq
              rw [Action.apply] at hrun
              split at hrun <;> cases hrun
              rename_i hnone
              have hroot : q ≠ [] := by
                rintro rfl
                cases hnone
              exact ⟨q, hkeep.walk hq, node?_put_self t .dir hroot⟩

/-- Where something is, no directory can be made. -/
theorem exec_mkdir_of_node {t : FileTree} {p q : List String} {n : FileNode}
    (hq : t.resolve p = .ok q) (hn : t.node? q = some n) (faults : List (Option Fault)) :
    ∃ e, t.exec [.mkdir p] faults = (t, some e) := by
  rcases exec_mkdir t p faults with ⟨t', hrun, -⟩ | he
  · obtain ⟨t₁, hrun, -⟩ := exec_cons_ok hrun
    rw [Action.run, show t.resolve (Action.mkdir p).path = .ok q from hq] at hrun
    simp only [Action.apply, hn] at hrun
    cases hrun
  · exact he

/-- A path leads to a directory. -/
def IsDir (t : FileTree) (p : List String) : Prop :=
  ∃ q, t.resolve p = .ok q ∧ t.node? q = some .dir

theorem IsDir.pathExists {t : FileTree} {p : List String} (h : t.IsDir p) :
    t.pathExists p = true := by
  obtain ⟨q, hq, hdir⟩ := h
  exact pathExists_of_node hq hdir

theorem KeepsKinds.isDir {t t' : FileTree} (h : KeepsKinds t t') {p : List String}
    (hp : t.IsDir p) : t'.IsDir p := by
  obtain ⟨q, hq, hdir⟩ := hp
  obtain ⟨n, hn, hkind⟩ := h q _ hdir
  rw [hkind.mpr rfl] at hn
  exact ⟨q, h.walk hq, hn⟩

/-- Whether a plain path leads to a directory only depends on it and on what is on the way. -/
theorem IsDir.congr {t t' : FileTree} {p : List String} (hp : Plain p) (h : t.IsDir p)
    (hsame : ∀ q, q <+: p → t'.node? q = t.node? q) : t'.IsDir p := by
  obtain ⟨q, hq, hdir⟩ := h
  obtain rfl : q = p := walk_eq_ok hp hq
  refine ⟨q, ?_, (hsame q List.prefix_rfl).trans hdir⟩
  refine Eq.trans (walk_congr hp ?_) hq
  exact fun q' hq' _ ↦ hsame q' hq'

/-- The directory a plain path leads to is at this path, in a directory. -/
theorem IsDir.node? {t : FileTree} {p : List String} {c : String} (hp : Plain p) (hc : c ≠ "..")
    (h : t.IsDir (p ++ [c])) : t.node? p = some .dir ∧ t.node? (p ++ [c]) = some .dir := by
  obtain ⟨q, hq, hdir⟩ := h
  obtain ⟨d, hd, hparent, rfl⟩ := (walk_concat_iff hc).mp hq
  obtain rfl : d = p := walk_eq_ok hp hd
  exact ⟨hparent, hdir⟩

theorem walk_error {t : FileTree} {cur cs : List String} {e : Errno}
    (h : t.walk cur cs = .error e) : e = .notFound ∨ e = .notADirectory := by
  induction cs generalizing cur with
  | nil => cases h
  | cons c cs ih =>
      rw [walk] at h
      split at h
      · cases h
        exact Or.inl rfl
      · cases h
        exact Or.inr rfl
      · split at h
        · exact ih h
        · exact ih h

/-- A run that makes no directory but ones that are there finds nothing in its way. -/
theorem exec_ne_alreadyExists {t : FileTree} {as : List Action}
    (hmkdir : ∀ p, .mkdir p ∉ as)
    (hdir : ∀ p, .ensureDir p ∈ as → ∃ q, t.resolve p = .ok q ∧ t.node? q = some .dir) :
    (t.exec as []).2 ≠ some .alreadyExists := by
  induction as generalizing t with
  | nil => nofun
  | cons a as ih =>
      have herror : ∀ e, a.run t = .error e → e ≠ .alreadyExists := by
        rintro e he rfl
        unfold Action.run at he
        split at he
        · rename_i e hresolve
          cases he
          rcases walk_error hresolve with h | h <;> cases h
        · rename_i q hq
          cases a with
          | mkdir p => exact hmkdir p List.mem_cons_self
          | ensureDir p =>
              obtain ⟨q', hq', hnode⟩ := hdir p List.mem_cons_self
              cases hq.symm.trans hq'
              rw [Action.apply, hnode] at he
              cases he
          | write p content =>
              rw [Action.apply] at he
              split at he <;> cases he
      rw [exec, show ([] : List (Option Fault)).head?.join = none from rfl, Action.runWith]
      cases hrun : a.run t with
      | error e => exact fun h ↦ herror e hrun (Option.some.inj h)
      | ok t' =>
          have hkeep := keepsKinds_run hrun
          refine ih (fun p hp ↦ hmkdir p (List.mem_cons_of_mem _ hp)) fun p hp ↦ ?_
          obtain ⟨q, hq, hnode⟩ := hdir p (List.mem_cons_of_mem _ hp)
          obtain ⟨n', hn', hkind⟩ := hkeep q _ hnode
          exact ⟨q, hkeep.walk hq, hkind.mpr rfl ▸ hn'⟩

/-! ## Writes that are cut short -/

/-- What a fault leaves of a text is where the text begins. -/
def Truncating (as : List Action) (faults : List (Option Fault)) : Prop :=
  ∀ (i : ℕ) (p : List String) (content : String) (fault : Fault) (left : String),
    as[i]? = some (.write p content) → faults[i]? = some (some fault) →
      fault.left = some left → left.toList <+: content.toList

theorem Truncating.append_right {as bs : List Action} {faults : List (Option Fault)}
    (h : Truncating (as ++ bs) faults) : Truncating bs (faults.drop as.length) := by
  intro i p content fault left hi hfault
  rw [List.getElem?_drop] at hfault
  refine h (as.length + i) p content fault left ?_ hfault
  rw [List.getElem?_append_right (Nat.le_add_right _ _), Nat.add_sub_cancel_left]
  exact hi

theorem Truncating.head {a : Action} {as : List Action} {faults : List (Option Fault)}
    (h : Truncating (a :: as) faults) {p : List String} {content left : String} {fault : Fault}
    (ha : a = .write p content) (hfault : faults.head?.join = some fault)
    (hleft : fault.left = some left) : left.toList <+: content.toList := by
  refine h 0 p content fault left (congrArg some ha) ?_ hleft
  cases faults with
  | nil => cases hfault
  | cons f faults => exact congrArg some hfault

theorem Truncating.tail {a : Action} {as : List Action} {faults : List (Option Fault)}
    (h : Truncating (a :: as) faults) : Truncating as faults.tail := by
  intro i p content fault left hi hfault
  refine h (i + 1) p content fault left hi ?_
  cases faults with
  | nil => cases hfault
  | cons f faults => exact hfault

/-- A file keeps its text as long as it is not touched itself. -/
theorem KeepsKinds.read_eq {t t' : FileTree} (h : KeepsKinds t t') {p : List String}
    (hp : Plain p) (hnode : t'.node? p = t.node? p) {content : String}
    (hr : t.read p = .ok content) : t'.read p = .ok content := by
  unfold FileTree.read at hr
  split at hr
  · cases hr
  · rename_i q hq
    obtain rfl : q = p := walk_eq_ok hp hq
    rw [FileTree.read, show t'.resolve q = .ok q from h.walk hq]
    simp only [hnode]
    exact hr

theorem read_exec_of_ne {t : FileTree} {as : List Action} (has : ∀ a ∈ as, Plain a.path)
    (faults : List (Option Fault)) {p : List String} (hp : Plain p)
    (hne : ∀ a ∈ as, a.path ≠ p) {content : String} (hr : t.read p = .ok content) :
    (t.exec as faults).1.read p = .ok content :=
  (KeepsKinds.exec t as faults).read_eq hp (node?_exec has faults hne) hr

/-- A write puts its text, or where its text begins, or fails and changes nothing. -/
theorem read_runWith_write (t : FileTree) (p : List String) (content : String)
    (fault : Option Fault) :
    (∃ e, (Action.write p content).runWith t fault = (t, some e)) ∨
      ∃ t' r left, (Action.write p content).runWith t fault = (t', r) ∧ t'.read p = .ok left ∧
        (r = none ∧ left = content ∨
          ∃ f, fault = some f ∧ f.left = some left ∧ r = some f.errno) := by
  cases fault with
  | none =>
      rw [Action.runWith]
      cases hrun : (Action.write p content).run t with
      | error e => exact Or.inl ⟨e, rfl⟩
      | ok t' => exact Or.inr ⟨t', none, content, rfl, read_run_write hrun, Or.inl ⟨rfl, rfl⟩⟩
  | some f =>
      rw [Action.runWith]
      cases hleft : f.left with
      | none => exact Or.inl ⟨f.errno, rfl⟩
      | some left =>
          simp only [Option.bind_some, Action.cutTo]
          cases hrun : (Action.write p left).run t with
          | error e => exact Or.inl ⟨e, rfl⟩
          | ok t' =>
              exact Or.inr ⟨t', some f.errno, left, rfl, read_run_write hrun,
                Or.inr ⟨f, rfl, hleft, rfl⟩⟩

/-- **Torn pair.**  However a run ends that writes two files, the second is touched only
once the first is complete, and what was touched holds its new text or where it begins. -/
theorem read_exec_torn {t : FileTree} {faults : List (Option Fault)} {p q : List String}
    {contentP contentQ oldP oldQ : String} (hp : Plain p) (hq : Plain q) (hpq : p ≠ q)
    (htruncating : Truncating [.write p contentP, .write q contentQ] faults)
    (hoverP : t.read p = .ok oldP) (hoverQ : t.read q = .ok oldQ) :
    ∃ textP textQ,
      (t.exec [.write p contentP, .write q contentQ] faults).1.read p = .ok textP ∧
      (t.exec [.write p contentP, .write q contentQ] faults).1.read q = .ok textQ ∧
      ((textP = oldP ∨ textP.toList <+: contentP.toList) ∧ textQ = oldQ ∨
        textP = contentP ∧ (textQ = oldQ ∨ textQ.toList <+: contentQ.toList)) := by
  have hkeepQ : ((Action.write p contentP).runWith t faults.head?.join).1.read q = .ok oldQ :=
    (keepsKinds_runWith t _ _).read_eq hq
      (node?_runWith (show Plain (Action.write p _).path from hp) _ hpq) hoverQ
  rw [exec]
  rcases read_runWith_write t p contentP faults.head?.join with ⟨e, hrun⟩ |
    ⟨t₁, r, left, hrun, hread, hleft⟩
  · rw [hrun]
    exact ⟨oldP, oldQ, hoverP, hoverQ, Or.inl ⟨Or.inl rfl, rfl⟩⟩
  · rw [hrun] at hkeepQ ⊢
    rcases hleft with ⟨rfl, rfl⟩ | ⟨f, hf, hleft, rfl⟩
    · -- the first file is complete, and stays so
      have hother : ∀ a ∈ [Action.write q contentQ], Plain a.path ∧ a.path ≠ p := by
        intro a ha
        rw [List.mem_singleton.mp ha]
        exact ⟨hq, hpq.symm⟩
      have hkeepP : (t₁.exec [.write q contentQ] faults.tail).1.read p = .ok left :=
        read_exec_of_ne (fun a ha ↦ (hother a ha).1) faults.tail hp (fun a ha ↦ (hother a ha).2)
          hread
      refine ⟨left, ?_⟩
      dsimp only
      rw [exec] at hkeepP ⊢
      rcases read_runWith_write t₁ q contentQ faults.tail.head?.join with ⟨e, hrun'⟩ |
        ⟨t₂, r', left', hrun', hread', hleft'⟩
      · rw [hrun'] at hkeepP ⊢
        exact ⟨oldQ, hkeepP, hkeepQ, Or.inr ⟨rfl, Or.inl rfl⟩⟩
      · rw [hrun'] at hkeepP ⊢
        rcases hleft' with ⟨rfl, rfl⟩ | ⟨f, hf, hleft', rfl⟩
        · exact ⟨left', hkeepP, hread', Or.inr ⟨rfl, Or.inr List.prefix_rfl⟩⟩
        · refine ⟨left', hkeepP, hread', Or.inr ⟨rfl, Or.inr ?_⟩⟩
          exact htruncating.tail.head rfl hf hleft'
    · refine ⟨left, oldQ, hread, hkeepQ, Or.inl ⟨Or.inr ?_, rfl⟩⟩
      exact htruncating.head rfl hf hleft

end FileTree
