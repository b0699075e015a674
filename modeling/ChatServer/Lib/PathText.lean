import ChatServer.Lib.FileTree

/-!
# Paths as text

How a path written as text names components: slashes separate, empty components
and `.` are dropped, and a leading slash starts at the root.  A `PlainName` is a
text that names exactly one component, itself, and that the file calls take at all:
they raise `ValueError` on a null character.  One that is `Inside` stays below the
directory it is joined to.
-/

namespace FileTree

/-- The components a text names. -/
def components (s : String) : List String :=
  ((s.toList.splitOn '/').map String.ofList).filter fun c ↦ c ≠ "" ∧ c ≠ "."

/-- A text taken as a path relative to a directory; one that starts with a slash
replaces the directory. -/
def join (dir : List String) (s : String) : List String :=
  if s.toList.head? = some '/' then components s else dir ++ components s

/-- A path as text. -/
def pathText (p : List String) : String := "/" ++ "/".intercalate p

/-- A text that names one component of a path. -/
structure PlainName (s : String) : Prop where
  ne_empty : s ≠ ""
  ne_dot : s ≠ "."
  ne_dotdot : s ≠ ".."
  no_slash : '/' ∉ s.toList
  no_null : '\x00' ∉ s.toList

instance (s : String) : Decidable (PlainName s) :=
  decidable_of_iff (s ≠ "" ∧ s ≠ "." ∧ s ≠ ".." ∧ '/' ∉ s.toList ∧ '\x00' ∉ s.toList)
    ⟨fun h ↦ ⟨h.1, h.2.1, h.2.2.1, h.2.2.2.1, h.2.2.2.2⟩,
      fun h ↦ ⟨h.ne_empty, h.ne_dot, h.ne_dotdot, h.no_slash, h.no_null⟩⟩

theorem PlainName.plain {s : String} (h : PlainName s) : Plain [s] := by
  intro c hc
  rw [List.mem_singleton.mp hc]
  exact h.ne_dotdot

/-- A text that leads from a directory to a place in it. -/
structure Inside (s : String) : Prop where
  relative : s.toList.head? ≠ some '/'
  plain : Plain (components s)

instance (s : String) : Decidable (Inside s) :=
  decidable_of_iff (s.toList.head? ≠ some '/' ∧ Plain (components s))
    ⟨fun h ↦ ⟨h.1, h.2⟩, fun h ↦ ⟨h.relative, h.plain⟩⟩

theorem join_of_inside {s : String} (h : Inside s) (dir : List String) :
    join dir s = dir ++ components s := if_neg h.relative

theorem components_of_plainName {s : String} (h : PlainName s) : components s = [s] := by
  have hsplit : s.toList.splitOn '/' = [s.toList] := by
    refine List.splitOnP_eq_singleton fun c hc ↦ beq_eq_false_iff_ne.mpr ?_
    rintro rfl
    exact h.no_slash hc
  rw [components, hsplit, List.map_singleton, String.ofList_toList, List.filter_cons,
    if_pos (decide_eq_true ⟨h.ne_empty, h.ne_dot⟩)]
  rfl

theorem PlainName.inside {s : String} (h : PlainName s) : Inside s := by
  constructor
  · exact fun hhead ↦ h.no_slash (List.mem_of_head? hhead)
  · rw [components_of_plainName h]
    exact h.plain

theorem join_of_plainName {s : String} (h : PlainName s) (dir : List String) :
    join dir s = dir ++ [s] := by
  rw [join_of_inside h.inside, components_of_plainName h]

end FileTree
