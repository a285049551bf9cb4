import Mathlib.Data.List.Basic

/-!
# Paths

A path is a list of characters, and its components are what stands between its
separators.  Resolving a path follows its components from a directory: the root where
the path is absolute, and the working directory otherwise.  An empty component and `.`
stay, `..` goes up, and any other component goes down.

The characters are a parameter, with the separator and the dot among them.  A component
that goes down is `Plain`; joining a path with plain components goes down from where the
path leads, so it stays inside.
-/

namespace MiniS3.Lib.Path

variable {α : Type} [DecidableEq α] (separator dot : α)

/-- The components of a path. -/
def components (path : List α) : List (List α) :=
  path.splitOn separator

/-- Follow one component from a directory, which is the list of names that lead to it. -/
def follow (directory : List (List α)) (component : List α) : List (List α) :=
  if component = [] ∨ component = [dot] then directory
  else if component = [dot, dot] then directory.dropLast
  else directory ++ [component]

/-- Where a path leads from a working directory. -/
def resolve (working : List (List α)) (path : List α) : List (List α) :=
  (components separator path).foldl (follow dot)
    (if path.head? = some separator then [] else working)

/-- The path leads to something below the directory. -/
def Inside (working : List (List α)) (directory path : List α) : Prop :=
  ∃ below, below ≠ [] ∧
    resolve separator dot working path = resolve separator dot working directory ++ below

/-- Append a path to a directory; an absolute path replaces it. -/
def join (base sub : List α) : List α :=
  if sub.head? = some separator then sub
  else if base.isEmpty || base.getLast? = some separator then base ++ sub
  else base ++ separator :: sub

/-- A component that goes down. -/
structure Plain (component : List α) : Prop where
  nonempty : component ≠ []
  unseparated : separator ∉ component
  stays : component ≠ [dot]
  climbs : component ≠ [dot, dot]

variable {separator dot}

theorem components_append (first second : List α) :
    components separator (first ++ separator :: second) =
      components separator first ++ components separator second :=
  List.splitOn_append_cons_self first second

theorem components_of_plain {component : List α} (plain : Plain separator dot component) :
    components separator component = [component] :=
  List.splitOn_eq_singleton plain.unseparated

theorem follow_of_plain {component : List α} (plain : Plain separator dot component)
    (directory : List (List α)) :
    follow dot directory component = directory ++ [component] := by
  unfold follow
  rw [if_neg (not_or.mpr ⟨plain.nonempty, plain.stays⟩), if_neg plain.climbs]

omit [DecidableEq α] in
theorem head?_ne_of_plain {component : List α} (plain : Plain separator dot component) :
    component.head? ≠ some separator := by
  intro first
  exact plain.unseparated (List.mem_of_mem_head? first)

/-- A plain component goes down from where the path leads. -/
theorem resolve_join {component : List α} (plain : Plain separator dot component)
    (working : List (List α)) (base : List α) :
    resolve separator dot working (join separator base component) =
      resolve separator dot working base ++ [component] := by
  have relative := head?_ne_of_plain plain
  unfold join
  rw [if_neg relative]
  by_cases empty : base = []
  · subst empty
    simp only [List.isEmpty_nil, Bool.true_or, if_true, List.nil_append, resolve,
      components_of_plain plain, if_neg relative, List.foldl_cons, List.foldl_nil,
      follow_of_plain plain]
    have stays : components separator [] = [[]] := List.splitOn_nil separator
    simp [stays, follow]
  · by_cases ended : base.getLast? = some separator
    · obtain ⟨front, rfl⟩ := List.getLast?_eq_some_iff.mp ended
      have same : (front ++ [separator] ++ component).head? = (front ++ [separator]).head? := by
        cases front <;> rfl
      have split : components separator (front ++ [separator] ++ component) =
          components separator front ++ [component] := by
        rw [List.append_assoc, List.singleton_append, components_append,
          components_of_plain plain]
      have shorter : components separator (front ++ [separator]) =
          components separator front ++ [[]] := by
        rw [components_append]
        exact congrArg _ (List.splitOn_nil separator)
      simp only [ended, decide_true, Bool.or_true, if_true]
      simp only [resolve, same, split, shorter, List.foldl_append, List.foldl_cons,
        List.foldl_nil, follow_of_plain plain]
      simp [follow]
    · have same : (base ++ separator :: component).head? = base.head? := by
        cases base with
        | nil => contradiction
        | cons first rest => rfl
      have kept : (base.isEmpty || decide (base.getLast? = some separator)) = false := by
        simp [empty, ended]
      rw [kept]
      simp only [Bool.false_eq_true, if_false, resolve, same, components_append,
        components_of_plain plain, List.foldl_append, List.foldl_cons, List.foldl_nil,
        follow_of_plain plain]

/-- Joining with a plain component stays inside. -/
theorem inside_join {component : List α} (plain : Plain separator dot component)
    (working : List (List α)) (base : List α) :
    Inside separator dot working base (join separator base component) :=
  ⟨[component], List.cons_ne_nil _ _, resolve_join plain working base⟩

theorem Inside.trans {working : List (List α)} {outer inner path : List α}
    (first : Inside separator dot working outer inner)
    (second : Inside separator dot working inner path) :
    Inside separator dot working outer path := by
  obtain ⟨below, nonempty, inner⟩ := first
  obtain ⟨further, -, path⟩ := second
  exact ⟨below ++ further, by simp [nonempty], by rw [path, inner, List.append_assoc]⟩

end MiniS3.Lib.Path
