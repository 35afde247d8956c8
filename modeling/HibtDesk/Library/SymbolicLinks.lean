import HibtDesk.Library.UnixPath

/-! A finite file system with symbolic links. A path is followed from place to place, a link
is replaced by its target on the way, and the system gives up after so many links. -/
namespace Lexical.Unix

inductive Node where
  | file
  | dir (entries : List (Text × Nat))
  | link (target : Text)
  deriving Repr

/-- The nodes by number, the root first. What a directory holds comes later than the
directory, so it is only links that lead back. -/
structure LinkedTree where
  nodes : List Node
  maxLinks : Nat
  ordered : ∀ id entries, nodes[id]? = some (Node.dir entries) → ∀ entry ∈ entries,
    PlainName entry.1 ∧ id < entry.2

/-- The chain of nodes from the root to one, the last one first and without the root. -/
abbrev Place := List Nat

namespace LinkedTree
variable (tree : LinkedTree)

def node (place : Place) : Option Node := tree.nodes[place.headD 0]?

/-- Follow the components from a place, the links on the way by means of `follow`. -/
def walk (follow : Place → List Component → Option Place) : Place → List Component → Option Place
  | place, [] => some place
  | _, .rootDir :: rest => walk follow [] rest
  | place, .curDir :: rest => walk follow place rest
  | place, .parentDir :: rest =>
      match tree.node place with
      | some (.dir _) => walk follow place.tail rest
      | _ => none
  | place, .normal name :: rest =>
      match tree.node place with
      | some (.dir entries) =>
          match entries.lookup name with
          | none => none
          | some child =>
              match tree.nodes[child]? with
              | none => none
              | some (.link target) => follow place (components target ++ rest)
              | some _ => walk follow (child :: place) rest
      | _ => none

/-- Follow the components through so many links at most. -/
def resolve : Nat → Place → List Component → Option Place
  | 0 => tree.walk fun _ _ => none
  | links + 1 => tree.walk (resolve links)

/-- What a path leads to from the directory at hand. -/
def locate (cwd : Place) (path : Text) : Option Place :=
  if components path = [] then none else tree.resolve tree.maxLinks cwd (components path)

variable {tree} {follow : Place → List Component → Option Place} {limit : Nat}

theorem node_lt {place : Place} {found : Node} (hNode : tree.node place = some found) :
    place.headD 0 < tree.nodes.length := (List.getElem?_eq_some_iff.mp hNode).1

/-- From a place downwards there are no more names than nodes after it, up to a link. -/
theorem length_le_of_walk_names
    (hFollow : ∀ (place : Place) (front : List Component) (names : List Text) (target : Place),
      follow place (front ++ names.map .normal) = some target → names.length ≤ limit)
    {place target : Place} {names : List Text}
    (hTop : names = [] → place.headD 0 ≤ limit + tree.nodes.length)
    (hWalk : tree.walk follow place (names.map .normal) = some target) :
    names.length + place.headD 0 ≤ limit + tree.nodes.length := by
  induction names generalizing place with
  | nil => simpa using hTop rfl
  | cons name names ih =>
      rw [List.map_cons, walk] at hWalk
      split at hWalk
      · rename_i entries hNode
        have hPlace := node_lt hNode
        split at hWalk
        · cases hWalk
        · rename_i child hChild
          have hMem : (name, child) ∈ entries := by
            obtain ⟨before, after, hSplit, -⟩ := List.lookup_eq_some_iff.mp hChild
            rw [hSplit]
            exact List.mem_append_right before List.mem_cons_self
          have hDown : place.headD 0 < child := (tree.ordered _ _ hNode (name, child) hMem).2
          split at hWalk
          · cases hWalk
          · have hRest := hFollow _ _ _ _ hWalk
            rw [List.length_cons]
            omega
          · rename_i hFound
            have hBound := (List.getElem?_eq_some_iff.mp hFound).1
            have hRest := ih (fun _ => by rw [List.headD_cons]; omega) hWalk
            rw [List.headD_cons] at hRest
            rw [List.length_cons]
            omega
      · cases hWalk

/-- No more names than that can be followed at the end of any path. -/
theorem length_le_of_walk
    (hFollow : ∀ (place : Place) (front : List Component) (names : List Text) (target : Place),
      follow place (front ++ names.map .normal) = some target → names.length ≤ limit)
    {place target : Place} {front : List Component} {names : List Text}
    (hWalk : tree.walk follow place (front ++ names.map .normal) = some target) :
    names.length ≤ limit + tree.nodes.length := by
  induction front generalizing place with
  | nil =>
      cases names with
      | nil => exact Nat.zero_le _
      | cons name names =>
          have hAll := length_le_of_walk_names hFollow (fun hNil => by cases hNil) hWalk
          omega
  | cons component front ih =>
      rw [List.cons_append] at hWalk
      cases component with
      | rootDir => exact ih hWalk
      | curDir => exact ih hWalk
      | parentDir =>
          rw [walk] at hWalk
          split at hWalk
          · exact ih hWalk
          · cases hWalk
      | normal name =>
          rw [walk] at hWalk
          split at hWalk
          · split at hWalk
            · cases hWalk
            · split at hWalk
              · cases hWalk
              · rw [← List.append_assoc] at hWalk
                exact Nat.le_add_right_of_le (hFollow _ _ _ _ hWalk)
              · exact ih hWalk
          · cases hWalk

/-- A path that is followed has so many names at its end at most, since it comes past a node
again only through a link. -/
theorem length_le_of_resolve (links : Nat) {place target : Place} {front : List Component}
    {names : List Text} (hResolve : tree.resolve links place (front ++ names.map .normal) = some target) :
    names.length ≤ (links + 1) * tree.nodes.length := by
  induction links generalizing place target front names with
  | zero =>
      have hNone : ∀ (_ : Place) (_ : List Component) (names : List Text) (target : Place),
          none = some target → names.length ≤ 0 := by
        intro _ _ names target hNone
        cases hNone
      have hWalk := length_le_of_walk hNone hResolve
      omega
  | succ links ih =>
      have hWalk := length_le_of_walk (fun _ _ _ _ hRest => ih hRest) hResolve
      rw [Nat.succ_mul]
      exact hWalk

/-- Whoever follows more follows the same way. -/
theorem walk_mono {more : Place → List Component → Option Place}
    (hMore : ∀ place rest target, follow place rest = some target → more place rest = some target)
    {place target : Place} {path : List Component} (hWalk : tree.walk follow place path = some target) :
    tree.walk more place path = some target := by
  induction path generalizing place with
  | nil => exact hWalk
  | cons component path ih =>
      cases component with
      | rootDir => exact ih hWalk
      | curDir => exact ih hWalk
      | parentDir =>
          rw [walk] at hWalk ⊢
          split at hWalk
          · exact ih hWalk
          · cases hWalk
      | normal name =>
          rw [walk] at hWalk ⊢
          split at hWalk
          · split at hWalk
            · cases hWalk
            · split at hWalk
              · cases hWalk
              · exact hMore _ _ _ hWalk
              · exact ih hWalk
          · cases hWalk

theorem resolve_succ {links : Nat} {place target : Place} {path : List Component}
    (hResolve : tree.resolve links place path = some target) :
    tree.resolve (links + 1) place path = some target := by
  induction links generalizing place target path with
  | zero => exact walk_mono (fun _ _ _ hNone => by cases hNone) hResolve
  | succ links ih => exact walk_mono (fun _ _ _ hRest => ih hRest) hResolve

/-- A path leads to one place, however many links may be followed. -/
theorem resolve_unique {links others : Nat} {place first second : Place} {path : List Component}
    (hFirst : tree.resolve links place path = some first)
    (hSecond : tree.resolve others place path = some second) : first = second := by
  have hMore : ∀ {links target} (k : Nat), tree.resolve links place path = some target →
      tree.resolve (links + k) place path = some target := by
    intro links target k hResolve
    induction k with
    | zero => exact hResolve
    | succ k ih => exact resolve_succ ih
  have hBoth := hMore links hSecond
  rw [Nat.add_comm, hMore others hFirst] at hBoth
  exact Option.some.inj hBoth

/-- What a path leads to is found from what its beginning leads to, if it is so beyond links. -/
theorem walk_append
    (hSelf : ∀ place rest target, tree.walk follow place rest = some target →
      ∃ left, tree.resolve left place rest = some target)
    (hFollow : ∀ place path rest target, follow place (path ++ rest) = some target →
      ∃ middle left, follow place path = some middle ∧ tree.resolve left middle rest = some target)
    {place target : Place} {path rest : List Component}
    (hWalk : tree.walk follow place (path ++ rest) = some target) :
    ∃ middle left, tree.walk follow place path = some middle ∧
      tree.resolve left middle rest = some target := by
  induction path generalizing place with
  | nil =>
      obtain ⟨left, hLeft⟩ := hSelf _ _ _ hWalk
      exact ⟨place, left, rfl, hLeft⟩
  | cons component path ih =>
      rw [List.cons_append] at hWalk
      cases component with
      | rootDir => exact ih hWalk
      | curDir => exact ih hWalk
      | parentDir =>
          rw [walk] at hWalk ⊢
          split at hWalk
          · exact ih hWalk
          · cases hWalk
      | normal name =>
          rw [walk] at hWalk ⊢
          split at hWalk
          · split at hWalk
            · cases hWalk
            · split at hWalk
              · cases hWalk
              · rw [← List.append_assoc] at hWalk
                exact hFollow _ _ _ _ hWalk
              · exact ih hWalk
          · cases hWalk

theorem resolve_append {links : Nat} {place target : Place} {path rest : List Component}
    (hResolve : tree.resolve links place (path ++ rest) = some target) :
    ∃ middle left, tree.resolve links place path = some middle ∧
      tree.resolve left middle rest = some target := by
  induction links generalizing place target path rest with
  | zero => exact walk_append (fun _ _ _ hWalk => ⟨0, hWalk⟩) (fun _ _ _ _ hNone => by cases hNone) hResolve
  | succ links ih =>
      exact walk_append (fun _ _ _ hWalk => ⟨links + 1, hWalk⟩) (fun _ _ _ _ hRest => ih hRest) hResolve

end LinkedTree

end Lexical.Unix
