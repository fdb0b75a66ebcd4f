/-
This file says where the pairs of a query string stand in its nested value, and proves that the
value holds exactly those pairs: each leaf is the last pair at its address, members come in the
order in which their names first appear, and items in the order of their pairs.
-/
import EntityFilter.Proofs.Collections
import EntityFilter.Request.NestedKey
import Mathlib.Data.List.Induction
import Mathlib.Data.List.Infix
import Mathlib.Data.List.Nodup

namespace EntityFilter

/-- A step from a container to one of its parts. -/
inductive Step where
  | member (name : String)
  | item (position : Nat)
  deriving DecidableEq, Repr

/-- The steps from a value to one of its parts. -/
abbrev Address := List Step

namespace Value

/-- The part of a value at an address. -/
def at? : Address → Value → Option Value
  | [], value => some value
  | .member name :: address, value => (value.member? name).bind (at? address)
  | .item position :: address, value => value.items[position]?.bind (at? address)

/-- A value without parts of its own, whatever it holds. -/
def isLeaf : Value → Bool
  | .array _ | .object _ => false
  | _ => true

@[simp] theorem at?_nil (value : Value) : at? [] value = some value := rfl

@[simp] theorem at?_member (name : String) (address : Address) (value : Value) :
    at? (.member name :: address) value = (value.member? name).bind (at? address) := rfl

@[simp] theorem at?_item (position : Nat) (address : Address) (value : Value) :
    at? (.item position :: address) value = value.items[position]?.bind (at? address) := rfl

end Value

namespace Request

/-- What a node is for an address that starts at it. -/
inductive Role where
  | leaf
  | object
  | array
  deriving DecidableEq, Repr

namespace Role

def ofAddress : Address → Role
  | [] => .leaf
  | .member _ :: _ => .object
  | .item _ :: _ => .array

end Role

/-- Leaves at their addresses, in the order of their pairs. -/
abbrev Placement := List (Address × Value)

namespace Placement

/-- The leaves behind a step, at their addresses from there. -/
def behind (step : Step) (placement : Placement) : Placement :=
  placement.filterMap fun
    | (first :: address, leaf) => if first = step then some (address, leaf) else none
    | ([], _) => none

/-- The leaves below a node, at their addresses from there. -/
def below : Address → Placement → Placement
  | [], placement => placement
  | step :: node, placement => below node (behind step placement)

/-- No node is at once a leaf and a container, or an object and an array. -/
def HasOneRole (placement : Placement) : Prop :=
  ∀ node, ∀ first ∈ placement.below node, ∀ second ∈ placement.below node,
    Role.ofAddress first.1 = Role.ofAddress second.1

/-- The last leaf that was placed at an address. -/
def last? (address : Address) (placement : Placement) : Option Value :=
  (placement.filter (·.1 = address)).getLast?.map Prod.snd

/-- The names by which leaves go on, in the order of their first appearance. -/
def names (placement : Placement) : List String :=
  (placement.filterMap fun
    | (.member name :: _, _) => some name
    | _ => none).eraseDups

/-- How many leaves go on in an item of their own. -/
def opened (placement : Placement) : Nat :=
  placement.countP fun leaf => Role.ofAddress leaf.1 = .array

/-- The address of a path beside the leaves that were placed before: every append opens a fresh
item, in which nothing was placed before. -/
def locate : List Segment → Placement → Address
  | [], _ => []
  | .name name :: path, placement => .member name :: locate path (placement.behind (.member name))
  | .append :: path, placement => .item placement.opened :: locate path []

/-- The leaves of paths that are followed one after the other. -/
def ofEntries (entries : List (List Segment × Value)) : Placement :=
  entries.foldl (fun placement entry => placement ++ [(locate entry.1 placement, entry.2)]) []

end Placement

/-- The segment that a step was taken for. -/
def Segment.ofStep : Step → Segment
  | .member text => .name text
  | .item _ => .append

/-- The paths of pairs, each with its decoded value. Pairs whose key has no path are left out. -/
def entriesOf (pairs : List (List Char × List Char)) : List (List Segment × Value) :=
  pairs.filterMap fun (key, text) =>
    (keyPath? key).map fun path => (path, decodeScalar (String.ofList text))

/-- The paths of a query string and their values. A question mark in front is no part of it. -/
def entriesOfQuery (query : String) : List (List Segment × Value) :=
  let text := query.toList
  entriesOf (formPairs (if text.head? == some '?' then text.drop 1 else text))

/-- A value holds the leaves of a placement, in the places and in the order that it gives them, and
nothing else. -/
structure Placement.Describes (placement : Placement) (value : Value) : Prop where
  leaves : ∀ address leaf, leaf.isLeaf →
    (value.at? address = some leaf ↔ placement.last? address = some leaf)
  members : ∀ address members, value.at? address = some (.object members) →
    Assoc.keys members = (placement.below address).names
  items : ∀ address items, value.at? address = some (.array items) →
    (placement.below address).map (·.1.head?) =
      (List.range items.length).map fun position => some (.item position)
  filled : ∀ address part, value.at? address = some part →
    address = [] ∨ placement.below address ≠ []

namespace Placement

section
variable {step : Step} {placement : Placement}

theorem behind_append (step : Step) (front back : Placement) :
    behind step (front ++ back) = behind step front ++ behind step back :=
  List.filterMap_append

theorem behind_same (step : Step) (address : Address) (leaf : Value) :
    behind step [(step :: address, leaf)] = [(address, leaf)] := by
  simp [behind]

theorem behind_eq_nil (absent : ∀ leaf ∈ placement, leaf.1.head? ≠ some step) :
    placement.behind step = [] := by
  rw [behind, List.filterMap_eq_nil_iff]
  intro leaf member
  obtain ⟨address, value⟩ := leaf
  cases address with
  | nil => rfl
  | cons first address => simpa using absent _ member

theorem of_mem_behind {leaf : Address × Value} (member : leaf ∈ placement.behind step) :
    (step :: leaf.1, leaf.2) ∈ placement := by
  obtain ⟨placed, listed, strips⟩ := List.mem_filterMap.mp member
  obtain ⟨address, value⟩ := placed
  cases address with
  | nil => cases strips
  | cons first address =>
      dsimp only at strips
      split at strips
      · next same =>
          cases strips
          exact same ▸ listed
      · cases strips

/-- A leaf below a node was placed behind the way to the node. -/
theorem of_mem_below {node : Address} {leaf : Address × Value}
    (member : leaf ∈ placement.below node) : (node ++ leaf.1, leaf.2) ∈ placement := by
  induction node generalizing placement with
  | nil => exact member
  | cons step node inductionHypothesis => exact of_mem_behind (inductionHypothesis member)

theorem below_nil (node : Address) : below node [] = [] := by
  induction node with
  | nil => rfl
  | cons step node inductionHypothesis => exact inductionHypothesis

theorem below_append (node : Address) (front back : Placement) :
    below node (front ++ back) = below node front ++ below node back := by
  induction node generalizing front back with
  | nil => rfl
  | cons step node inductionHypothesis =>
      rw [below, behind_append, inductionHypothesis]
      rfl

theorem below_sublist (node : Address) {fewer : Placement} (sublist : fewer.Sublist placement) :
    (fewer.below node).Sublist (placement.below node) := by
  induction node generalizing fewer placement with
  | nil => exact sublist
  | cons step node inductionHypothesis => exact inductionHypothesis (sublist.filterMap _)

/-- What was placed at an address is placed at its end below a node on the way. -/
theorem below_singleton (node address : Address) (leaf : Value) :
    below node [(node ++ address, leaf)] = [(address, leaf)] := by
  induction node with
  | nil => rfl
  | cons step node inductionHypothesis =>
      rw [List.cons_append, below, behind_same, inductionHypothesis]

theorem last?_cons (step : Step) (address : Address) (placement : Placement) :
    last? (step :: address) placement = last? address (placement.behind step) := by
  have same : (placement.filter (·.1 = step :: address)).map Prod.snd =
      ((placement.behind step).filter (·.1 = address)).map Prod.snd := by
    induction placement with
    | nil => rfl
    | cons leaf placement inductionHypothesis =>
        obtain ⟨place, value⟩ := leaf
        have split : (place, value) :: placement = [(place, value)] ++ placement := rfl
        rw [split, behind_append, List.filter_append, List.filter_append, List.map_append,
          List.map_append, inductionHypothesis]
        congr 1
        cases place with
        | nil => simp [behind]
        | cons first place =>
            by_cases onward : first = step
            · by_cases ends : place = address <;> simp [behind, onward, ends]
            · simp [behind, onward]
  rw [last?, last?, ← List.getLast?_map, ← List.getLast?_map, same]

/-- The last leaf at an address is the last one that ends at the node there. -/
theorem last?_eq_below (address : Address) (placement : Placement) :
    last? address placement = last? [] (placement.below address) := by
  induction address generalizing placement with
  | nil => rfl
  | cons step address inductionHypothesis =>
      rw [last?_cons, inductionHypothesis]
      rfl

theorem HasOneRole.behind (oneRole : placement.HasOneRole) (step : Step) :
    (placement.behind step).HasOneRole :=
  fun node => oneRole (step :: node)

theorem HasOneRole.front {later : Placement} (oneRole : HasOneRole (placement ++ later)) :
    placement.HasOneRole := by
  intro node first firstMember second secondMember
  apply oneRole node
  · rw [below_append]
    exact List.mem_append_left _ firstMember
  · rw [below_append]
    exact List.mem_append_left _ secondMember

/-- The role of the last leaf is the role of all leaves. -/
theorem HasOneRole.role {address : Address} {leaf : Value}
    (oneRole : HasOneRole (placement ++ [(address, leaf)])) :
    ∀ other ∈ placement ++ [(address, leaf)],
      Role.ofAddress other.1 = Role.ofAddress address := by
  intro other member
  exact oneRole [] other member (address, leaf) (List.mem_append_right _ List.mem_cons_self)

/-- At most one leaf is below a node if one leaf is placed. -/
theorem below_one (node address : Address) (leaf : Value) :
    below node [(address, leaf)] = [] ∨ ∃ rest, below node [(address, leaf)] = [(rest, leaf)] := by
  induction node generalizing address with
  | nil => exact Or.inr ⟨address, rfl⟩
  | cons step node inductionHypothesis =>
      rw [below]
      by_cases starts : address.head? = some step
      · obtain ⟨rest, rfl⟩ := List.head?_eq_some_iff.mp starts
        rw [behind_same]
        exact inductionHypothesis rest
      · rw [behind_eq_nil (by simpa using starts), below_nil]
        exact Or.inl rfl

theorem HasOneRole.single (address : Address) (leaf : Value) : HasOneRole [(address, leaf)] := by
  intro node first firstMember second secondMember
  rcases below_one node address leaf with nothing | ⟨rest, one⟩
  · rw [nothing] at firstMember
    cases firstMember
  · rw [one] at firstMember secondMember
    rw [List.mem_singleton.mp firstMember, List.mem_singleton.mp secondMember]

/-- A name that leaves go on by keeps its place, and any other one comes last. -/
theorem names_concat (placement : Placement) (name : String) (address : Address) (leaf : Value) :
    names (placement ++ [(.member name :: address, leaf)]) =
      if name ∈ placement.names then placement.names else placement.names ++ [name] := by
  unfold names
  rw [List.filterMap_append]
  change (_ ++ [name]).eraseDups = _
  simp only [eraseDups_concat, List.mem_eraseDups]

end

/-- What the leaves below a node make of the part of a value at the node. -/
inductive Fits : Option Value → Placement → Prop
  | absent : Fits none []
  | leaf {value : Value} {placement : Placement} (isLeaf : value.isLeaf = true)
      (ends : ∀ leaf ∈ placement, leaf.1 = [])
      (last : placement.getLast?.map Prod.snd = some value) : Fits (some value) placement
  | object {members : Members} {placement : Placement} (present : placement ≠ [])
      (goOn : ∀ leaf ∈ placement, Role.ofAddress leaf.1 = .object)
      (named : Assoc.keys members = placement.names) : Fits (some (.object members)) placement
  | array {items : List Value} {placement : Placement} (present : placement ≠ [])
      (opens : placement.map (·.1.head?) =
        (List.range items.length).map fun position => some (.item position)) :
      Fits (some (.array items)) placement

theorem Fits.eq_nil {placement : Placement} (fits : Fits none placement) : placement = [] := by
  cases fits
  rfl

/-- A node that was made for the leaves below it: a node without leaves has no parts. -/
structure Makes (placement : Placement) (node : Value) : Prop where
  root : Fits (some node) placement ∨ placement = [] ∧ node.members = [] ∧ node.items = []
  parts : ∀ step address, Fits (node.at? (step :: address)) (placement.below (step :: address))

section
variable {placement : Placement} {count : Nat}

/-- Leaves that open items one after the other start with positions of those items. -/
theorem starts_of_opens
    (opens : placement.map (·.1.head?) =
      (List.range count).map fun position => some (.item position))
    {leaf : Address × Value} (member : leaf ∈ placement) :
    ∃ position < count, leaf.1.head? = some (.item position) := by
  have listed : leaf.1.head? ∈ placement.map (·.1.head?) := List.mem_map_of_mem member
  rw [opens] at listed
  obtain ⟨position, within, starts⟩ := List.mem_map.mp listed
  exact ⟨position, List.mem_range.mp within, starts.symm⟩

theorem role_of_opens
    (opens : placement.map (·.1.head?) =
      (List.range count).map fun position => some (.item position))
    {leaf : Address × Value} (member : leaf ∈ placement) : Role.ofAddress leaf.1 = .array := by
  obtain ⟨position, _, starts⟩ := starts_of_opens opens member
  obtain ⟨rest, address⟩ := List.head?_eq_some_iff.mp starts
  rw [address]
  rfl

end

namespace Makes

variable {placement : Placement} {node : Value}

theorem empty {node : Value} (members : node.members = []) (items : node.items = []) :
    Makes [] node where
  root := Or.inr ⟨rfl, members, items⟩
  parts step address := by
    rw [below_nil]
    cases step with
    | member name =>
        rw [Value.at?_member, Value.member?, members]
        exact .absent
    | item position =>
        rw [Value.at?_item, items]
        exact .absent

theorem ofFits (fits : ∀ address, Fits (node.at? address) (placement.below address)) :
    Makes placement node :=
  ⟨Or.inl (fits []), fun step address => fits (step :: address)⟩

/-- The member of a name was made for the leaves behind it. -/
theorem member (makes : Makes placement node) (name : String) :
    Makes (placement.behind (.member name)) ((node.member? name).getD .null) := by
  have parts := makes.parts (.member name)
  cases found : node.member? name with
  | none =>
      have missing := parts []
      rw [Value.at?_member, found] at missing
      have nothing : placement.behind (.member name) = [] := missing.eq_nil
      rw [nothing]
      exact empty rfl rfl
  | some child =>
      apply ofFits
      intro address
      have part := parts address
      rw [Value.at?_member, found] at part
      exact part

/-- Where all leaves go on by names, the members of the node are those names. -/
theorem keys_members (makes : Makes placement node)
    (goOn : ∀ leaf ∈ placement, Role.ofAddress leaf.1 = .object) :
    Assoc.keys node.members = placement.names := by
  cases makes.root with
  | inr bare =>
      obtain ⟨nothing, members, _⟩ := bare
      rw [nothing, members]
      rfl
  | inl fits =>
      cases fits with
      | leaf _ ends last =>
          obtain ⟨found, place, _⟩ := Option.map_eq_some_iff.mp last
          have role := goOn found (List.mem_of_getLast? place)
          rw [ends found (List.mem_of_getLast? place)] at role
          cases role
      | object _ _ named => exact named
      | array present opens =>
          obtain ⟨first, _, rfl⟩ := List.exists_cons_of_ne_nil present
          have role := goOn first List.mem_cons_self
          rw [role_of_opens opens List.mem_cons_self] at role
          cases role

/-- Where all leaves open items, they are the items of the node. -/
theorem opens_items (makes : Makes placement node)
    (goOn : ∀ leaf ∈ placement, Role.ofAddress leaf.1 = .array) :
    placement.map (·.1.head?) =
      (List.range node.items.length).map fun position => some (.item position) := by
  cases makes.root with
  | inr bare =>
      obtain ⟨nothing, _, items⟩ := bare
      rw [nothing, items]
      rfl
  | inl fits =>
      cases fits with
      | leaf _ ends last =>
          obtain ⟨found, place, _⟩ := Option.map_eq_some_iff.mp last
          have role := goOn found (List.mem_of_getLast? place)
          rw [ends found (List.mem_of_getLast? place)] at role
          cases role
      | object present others _ =>
          obtain ⟨first, _, rfl⟩ := List.exists_cons_of_ne_nil present
          have role := goOn first List.mem_cons_self
          rw [others first List.mem_cons_self] at role
          cases role
      | array _ opens => exact opens

end Makes

section
variable {leaf : Value} {placement : Placement} {node : Value} {address : Address}

/-- Leaves that go on in another way are not behind a step. -/
theorem behind_of_role {role : Role} (step : Step)
    (goOn : ∀ leaf ∈ placement, Role.ofAddress leaf.1 = role)
    (other : Role.ofAddress [step] ≠ role) : placement.behind step = [] := by
  apply behind_eq_nil
  intro leaf member starts
  obtain ⟨place, value⟩ := leaf
  cases place with
  | nil => cases starts
  | cons first place =>
      cases starts
      apply other
      rw [← goOn _ member]
      cases step <;> rfl

theorem fits_leaf (isLeaf : leaf.isLeaf = true)
    (oneRole : HasOneRole (placement ++ [([], leaf)])) (address : Address) :
    Fits (leaf.at? address) (below address (placement ++ [([], leaf)])) := by
  have roles : ∀ other ∈ placement ++ [([], leaf)], Role.ofAddress other.1 = .leaf := oneRole.role
  cases address with
  | nil =>
      apply Fits.leaf isLeaf _ (by simp [below])
      intro other member
      have role := roles other member
      cases ends : other.1 with
      | nil => rfl
      | cons step rest =>
          rw [ends] at role
          cases step <;> cases role
  | cons step address =>
      have nothing : behind step (placement ++ [([], leaf)]) = [] := by
        apply behind_of_role step roles
        cases step <;> nofun
      rw [below, nothing, below_nil]
      have missing : leaf.at? (step :: address) = none := by
        cases leaf with
        | array items => cases isLeaf
        | object members => cases isLeaf
        | _ => cases step <;> rfl
      rw [missing]
      exact .absent

/-- A leaf behind a name changes the member of that name only. -/
theorem fits_member {name : String} {change : Option Value → Value}
    (makes : Makes placement node)
    (oneRole : HasOneRole (placement ++ [(.member name :: address, leaf)]))
    (inside : ∀ rest, Fits ((change (node.member? name)).at? rest)
      (below rest (placement.behind (.member name) ++ [(address, leaf)]))) (whole : Address) :
    Fits ((Value.object (Assoc.alter name change node.members)).at? whole)
      (below whole (placement ++ [(.member name :: address, leaf)])) := by
  have roles : ∀ other ∈ placement ++ [(.member name :: address, leaf)],
      Role.ofAddress other.1 = .object := oneRole.role
  cases whole with
  | nil =>
      apply Fits.object (by simp) roles
      have keys := makes.keys_members fun other member =>
        roles other (List.mem_append_left _ member)
      rw [Assoc.keys_alter, keys]
      exact (names_concat placement name address leaf).symm
  | cons step rest =>
      rw [below]
      cases step with
      | member other =>
          rw [Value.at?_member, Value.member?, Value.members, behind_append]
          by_cases same : name = other
          · subst same
            rw [Assoc.find?_alter_same, behind_same]
            exact inside rest
          · have elsewhere : behind (.member other) [(.member name :: address, leaf)] = [] := by
              simp [behind, same]
            rw [Assoc.find?_alter_other same, elsewhere, List.append_nil]
            exact makes.parts (.member other) rest
      | item position =>
          have other : Role.ofAddress [.item position] ≠ .object := Role.noConfusion
          rw [behind_of_role (.item position) roles other, below_nil]
          exact .absent

/-- A leaf in a fresh item adds the item behind those of the leaves before. -/
theorem fits_item {item : Value} (makes : Makes placement node)
    (oneRole : HasOneRole (placement ++ [(.item placement.opened :: address, leaf)]))
    (inside : ∀ rest, Fits (item.at? rest) (below rest [(address, leaf)])) (whole : Address) :
    Fits ((Value.array (node.items ++ [item])).at? whole)
      (below whole (placement ++ [(.item placement.opened :: address, leaf)])) := by
  have roles : ∀ other ∈ placement ++ [(.item placement.opened :: address, leaf)],
      Role.ofAddress other.1 = .array := oneRole.role
  have opens := makes.opens_items fun other member => roles other (List.mem_append_left _ member)
  have count : placement.opened = node.items.length := by
    have size := congrArg List.length opens
    rw [List.length_map, List.length_map, List.length_range] at size
    rw [opened, ← size, List.countP_eq_length]
    intro other member
    exact decide_eq_true (roles other (List.mem_append_left _ member))
  rw [count] at roles ⊢
  cases whole with
  | nil =>
      apply Fits.array (by simp [below])
      simp [below, opens, List.range_succ]
  | cons step rest =>
      rw [below]
      cases step with
      | member other =>
          rw [behind_of_role (.member other) roles nofun, below_nil]
          exact .absent
      | item position =>
          have beyond (later : node.items.length ≤ position) :
              placement.behind (.item position) = [] := by
            apply behind_eq_nil
            intro other member starts
            obtain ⟨taken, within, first⟩ := starts_of_opens opens member
            rw [starts] at first
            cases first
            omega
          have elsewhere (different : position ≠ node.items.length) :
              behind (.item position) [(.item node.items.length :: address, leaf)] = [] := by
            simp [behind, Ne.symm different]
          rw [Value.at?_item, Value.items, behind_append]
          rcases Nat.lt_trichotomy position node.items.length with earlier | rfl | later
          · rw [List.getElem?_append_left earlier, elsewhere (by omega), List.append_nil]
            exact makes.parts (.item position) rest
          · rw [List.getElem?_concat_length, beyond (by omega), behind_same]
            exact inside rest
          · rw [List.getElem?_eq_none (by simp; omega), beyond (by omega), elsewhere (by omega),
              List.nil_append, below_nil]
            exact .absent

end

/-- A value at the end of a path fits the leaves that were placed before and the one at its end. -/
theorem fits_insertAt (isLeaf : leaf.isLeaf = true) (path : List Segment)
    {placement : Placement} {node : Value} (makes : Makes placement node)
    (oneRole : HasOneRole (placement ++ [(locate path placement, leaf)])) (address : Address) :
    Fits ((insertAt leaf path node).at? address)
      (below address (placement ++ [(locate path placement, leaf)])) := by
  induction path generalizing placement node address with
  | nil => exact fits_leaf isLeaf oneRole address
  | cons segment path inductionHypothesis =>
      cases segment with
      | name name =>
          apply fits_member makes oneRole
          apply inductionHypothesis (makes.member name)
          have behind := oneRole.behind (.member name)
          rwa [locate, behind_append, behind_same] at behind
      | append =>
          apply fits_item makes oneRole
          apply inductionHypothesis (.empty rfl rfl)
          exact .single _ leaf

theorem ofEntries_concat (entries : List (List Segment × Value)) (path : List Segment)
    (leaf : Value) :
    ofEntries (entries ++ [(path, leaf)]) =
      ofEntries entries ++ [(locate path (ofEntries entries), leaf)] := by
  simp [ofEntries]

/-- The values put at the end of their paths, one after the other, make a node for their leaves. -/
theorem makes_ofEntries {entries : List (List Segment × Value)}
    (leaves : ∀ entry ∈ entries, entry.2.isLeaf = true) (oneRole : (ofEntries entries).HasOneRole) :
    Makes (ofEntries entries)
      (entries.foldl (fun node entry => insertAt entry.2 entry.1 node) (.object [])) := by
  induction entries using List.reverseRecOn with
  | nil => exact .empty rfl rfl
  | append_singleton entries entry inductionHypothesis =>
      obtain ⟨path, leaf⟩ := entry
      rw [ofEntries_concat] at oneRole ⊢
      rw [List.foldl_append]
      obtain ⟨earlier, isLeaf⟩ := List.forall_mem_append.mp leaves
      apply Makes.ofFits
      exact fits_insertAt (isLeaf _ List.mem_cons_self) path
        (inductionHypothesis earlier oneRole.front) oneRole

theorem Fits.last?_iff {part : Option Value} {placement : Placement} (fits : Fits part placement)
    {leaf : Value} (isLeaf : leaf.isLeaf = true) :
    part = some leaf ↔ placement.last? [] = some leaf := by
  have ended {role : Role} (goOn : ∀ leaf ∈ placement, Role.ofAddress leaf.1 = role)
      (other : role ≠ .leaf) : placement.last? [] = none := by
    have nothing : placement.filter (·.1 = []) = [] := by
      rw [List.filter_eq_nil_iff]
      intro found member ends
      apply other
      rw [← goOn found member, of_decide_eq_true ends]
      rfl
    rw [last?, nothing]
    rfl
  cases fits with
  | absent => simp [last?]
  | leaf _ ends last =>
      have all : placement.filter (·.1 = []) = placement := by
        rw [List.filter_eq_self]
        intro found member
        exact decide_eq_true (ends found member)
      rw [last?, all, last]
  | object _ goOn _ =>
      rw [ended goOn nofun]
      constructor
      · intro same
        cases same
        cases isLeaf
      · nofun
  | array _ opens =>
      rw [ended (fun _ => role_of_opens opens) nofun]
      constructor
      · intro same
        cases same
        cases isLeaf
      · nofun

/-- Every part fits the leaves below it; only the root may be without leaves. -/
theorem Makes.fits {placement : Placement} {node part : Value} (makes : Makes placement node)
    {address : Address} (found : node.at? address = some part) :
    Fits (some part) (placement.below address) ∨
      address = [] ∧ placement = [] ∧ part.members = [] ∧ part.items = [] := by
  cases address with
  | nil =>
      cases found
      exact makes.root.imp id fun bare => ⟨rfl, bare⟩
  | cons step address =>
      left
      rw [← found]
      exact makes.parts step address

/-- A container that was made for leaves is described by them. -/
theorem Makes.describes {placement : Placement} {node : Value} (makes : Makes placement node)
    (container : node.isLeaf = false) : placement.Describes node where
  leaves address leaf isLeaf := by
    rw [last?_eq_below]
    cases address with
    | cons step address => exact (makes.parts step address).last?_iff isLeaf
    | nil =>
        cases makes.root with
        | inl fits => exact fits.last?_iff isLeaf
        | inr bare =>
            rw [bare.1]
            constructor
            · intro same
              cases same
              rw [container] at isLeaf
              cases isLeaf
            · nofun
  members address members found := by
    rcases makes.fits found with fits | ⟨rfl, rfl, nothing, _⟩
    · cases fits with
      | leaf isLeaf => cases isLeaf
      | object _ _ named => exact named
    · cases nothing
      rfl
  items address items found := by
    rcases makes.fits found with fits | ⟨rfl, rfl, _, nothing⟩
    · cases fits with
      | leaf isLeaf => cases isLeaf
      | array _ opens => exact opens
    · cases nothing
      rfl
  filled address part found := by
    rcases makes.fits found with fits | ⟨root, _⟩
    · right
      intro nothing
      rw [nothing] at fits
      cases fits with
      | leaf _ _ last => cases last
      | object present => exact present rfl
      | array present => exact present rfl
    · exact Or.inl root

/-- A node with leaves below it fits them. -/
theorem Makes.fitsAt {placement : Placement} {node : Value} (makes : Makes placement node)
    {address : Address} (present : placement.below address ≠ []) :
    Fits (node.at? address) (placement.below address) := by
  cases address with
  | cons step address => exact makes.parts step address
  | nil =>
      cases makes.root with
      | inl fits => exact fits
      | inr bare => exact absurd bare.1 present

/-- Leaves that share their address share no item: each append opened an item of its own. -/
theorem Makes.pairwise {placement : Placement} {node : Value} (makes : Makes placement node) :
    placement.Pairwise fun first second => first.1 = second.1 →
      ∀ step ∈ first.1, ∃ name, step = .member name := by
  rw [List.pairwise_iff_forall_sublist]
  rintro ⟨address, leaf⟩ ⟨other, later⟩ listed rfl step onWay
  cases step with
  | member name => exact ⟨name, rfl⟩
  | item position =>
      obtain ⟨way, rest, rfl⟩ := List.append_of_mem onWay
      have both : [(.item position :: rest, leaf), (.item position :: rest, later)].Sublist
          (placement.below way) := by
        have split := below_append way [(way ++ .item position :: rest, leaf)]
          [(way ++ .item position :: rest, later)]
        rw [below_singleton, below_singleton] at split
        have sublist := below_sublist way listed
        rwa [← List.singleton_append, split] at sublist
      have member := both.subset List.mem_cons_self
      have fits := makes.fitsAt (List.ne_nil_of_mem member)
      generalize node.at? way = part at fits
      generalize placement.below way = leaves at fits both member
      cases fits with
      | absent => cases member
      | leaf _ ends _ => cases ends _ member
      | object _ goOn _ => cases goOn _ member
      | array _ opens =>
          have starts := both.map (·.1.head?)
          rw [opens] at starts
          have injective : Function.Injective fun position => some (Step.item position) := by
            intro left right same
            simpa using same
          have distinct := starts.nodup (List.nodup_range.map injective)
          simp at distinct

/-- The steps of an address were taken for the segments of its path. -/
theorem map_ofStep_locate (path : List Segment) (placement : Placement) :
    (locate path placement).map Segment.ofStep = path := by
  induction path generalizing placement with
  | nil => rfl
  | cons segment path inductionHypothesis =>
      cases segment with
      | name text => exact congrArg (Segment.name text :: ·) (inductionHypothesis _)
      | append => exact congrArg (Segment.append :: ·) (inductionHypothesis _)

/-- Every path has its leaf, in order. -/
theorem map_ofEntries (entries : List (List Segment × Value)) :
    (ofEntries entries).map (fun leaf => (leaf.1.map Segment.ofStep, leaf.2)) = entries := by
  induction entries using List.reverseRecOn with
  | nil => rfl
  | append_singleton entries entry inductionHypothesis =>
      rw [ofEntries_concat, List.map_append, inductionHypothesis, List.map_singleton,
        map_ofStep_locate]

end Placement

/-- A request value decodes to a leaf. -/
theorem isLeaf_decodeScalar (text : String) : (decodeScalar text).isLeaf = true := by
  unfold decodeScalar
  cases canonicalInteger? text with
  | some number => rfl
  | none =>
      cases canonicalDecimal? text with
      | some number => rfl
      | none => rfl

/-- The first segment of a path is a name. -/
theorem exists_name_of_keyPath? {key : List Char} {path : List Segment}
    (read : keyPath? key = some path) : ∃ text rest, path = .name text :: rest := by
  unfold keyPath? at read
  dsimp only at read
  split at read
  · cases read
  · split at read
    · cases read
      exact ⟨_, _, rfl⟩
    · cases read
      exact ⟨_, [], rfl⟩

theorem insertPair_eq (root : Value) (pair : List Char × List Char) :
    insertPair root pair =
      (entriesOf [pair]).foldl (fun node entry => insertAt entry.2 entry.1 node) root := by
  rw [insertPair, entriesOf]
  cases read : keyPath? pair.1 <;> simp [read]

/-- A query is decoded by putting the values of its paths at their ends. -/
theorem decodeNested_eq_foldl (query : String) :
    decodeNested query = (entriesOfQuery query).foldl
      (fun node entry => insertAt entry.2 entry.1 node) (.object []) := by
  rw [decodeNested, entriesOfQuery]
  generalize formPairs _ = pairs
  generalize Value.object [] = root
  induction pairs generalizing root with
  | nil => rfl
  | cons pair pairs inductionHypothesis =>
      have split : entriesOf (pair :: pairs) = entriesOf [pair] ++ entriesOf pairs :=
        List.filterMap_append (l := [pair])
      rw [List.foldl_cons, inductionHypothesis, split, List.foldl_append, insertPair_eq]

theorem isObject_decodeNested (query : String) : (decodeNested query).isObject = true := by
  rw [decodeNested]
  generalize formPairs _ = pairs
  induction pairs using List.reverseRecOn with
  | nil => rfl
  | append_singleton pairs pair inductionHypothesis =>
      rw [List.foldl_append, List.foldl_cons, List.foldl_nil, insertPair]
      cases read : keyPath? pair.1 with
      | none => exact inductionHypothesis
      | some path =>
          obtain ⟨text, rest, rfl⟩ := exists_name_of_keyPath? read
          rfl

/-- The nested value of a query holds the pairs of the query and nothing else, unless a node is
addressed in two roles. Each address holds its last leaf, in order. -/
theorem decodeNested_described (query : String)
    (oneRole : (Placement.ofEntries (entriesOfQuery query)).HasOneRole) :
    let placement := Placement.ofEntries (entriesOfQuery query)
    placement.map (fun leaf => (leaf.1.map Segment.ofStep, leaf.2)) = entriesOfQuery query ∧
    placement.Pairwise (fun first second => first.1 = second.1 →
      ∀ step ∈ first.1, ∃ name, step = .member name) ∧
    (decodeNested query).isObject = true ∧
    placement.Describes (decodeNested query) := by
  have leaves : ∀ entry ∈ entriesOfQuery query, entry.2.isLeaf = true := by
    intro entry member
    obtain ⟨pair, _, read⟩ := List.mem_filterMap.mp member
    obtain ⟨path, _, rfl⟩ := Option.map_eq_some_iff.mp read
    exact isLeaf_decodeScalar _
  have makes := Placement.makes_ofEntries leaves oneRole
  rw [← decodeNested_eq_foldl] at makes
  have object := isObject_decodeNested query
  have container : (decodeNested query).isLeaf = false := by
    cases shape : decodeNested query with
    | object members => rfl
    | _ =>
        rw [shape] at object
        cases object
  exact ⟨Placement.map_ofEntries _, makes.pairwise, object, makes.describes container⟩

/-- Roles are told apart at the nodes on the way of some leaf. -/
theorem Placement.hasOneRole_iff {placement : Placement} :
    placement.HasOneRole ↔
      ∀ node ∈ placement.flatMap fun leaf => leaf.1.inits,
        ∀ first ∈ placement.below node, ∀ second ∈ placement.below node,
          Role.ofAddress first.1 = Role.ofAddress second.1 := by
  constructor
  · intro oneRole node _
    exact oneRole node
  · intro onTheWay node first firstMember
    have way : node ∈ placement.flatMap fun leaf => leaf.1.inits := by
      rw [List.mem_flatMap]
      exact ⟨_, of_mem_below firstMember, (List.mem_inits _ _).mpr (List.prefix_append _ _)⟩
    exact onTheWay node way first firstMember

instance : DecidablePred Placement.HasOneRole :=
  fun _ => decidable_of_iff' _ Placement.hasOneRole_iff

/-- A name twice, items behind a name, and an item with a name of its own. -/
def repeatedQuery : String :=
  "?page[size]=5&ids[]=3&page[at]=1&tags[][name]=new&ids[]=07&[bad]=1&page[size]=9&tags[][name]=old"

theorem decodeNested_described_repeated :
    (Placement.ofEntries (entriesOfQuery repeatedQuery)).HasOneRole ∧
    (Placement.ofEntries (entriesOfQuery repeatedQuery)).Describes (decodeNested repeatedQuery) := by
  have oneRole : (Placement.ofEntries (entriesOfQuery repeatedQuery)).HasOneRole := by
    decide +kernel
  exact ⟨oneRole, (decodeNested_described repeatedQuery oneRole).2.2.2⟩

example : decodeNested repeatedQuery = .object [
    ("page", .object [("size", .int 9), ("at", .int 1)]),
    ("ids", .array [.int 3, .string "07"]),
    ("tags", .array [.object [("name", .string "new")], .object [("name", .string "old")]])] := by
  decide +kernel

end Request

end EntityFilter
