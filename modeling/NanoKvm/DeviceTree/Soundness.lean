import Mathlib.Data.Set.Lattice
import Mathlib.Order.CompletePartialOrder
import Mathlib.Order.Interval.Set.Basic
import NanoKvm.DeviceTree.Guard
import NanoKvm.Text.Fallible

/-!
# A tree that passes the guard keeps Linux off the leases

`Cleared` says of a tuple of a `reg` what the guard is for: it translates to the root by the
rules of the device tree and is disjoint from every lease, or it lies behind a bus without
`ranges` whose controller is cleared itself. `guard_clears` shows it for every enabled node of
a tree that passes. Which `ranges` count as empty is a parameter of the rules: the guard takes
one without cells for empty, also when it has bytes, which `byte_ranges_pass` uses.
-/

namespace NanoKvm.DeviceTree

open Text

/-! ## What the tree says -/

/-- The places of a tree. -/
inductive Located (root : Node) : Place → Prop where
  | root : Located root (.root root)
  | child {parent : Place} {number : Nat} {name : String}
      {properties : List (String × List Token)} {children : List Node} {node : Node}
      (hparent : Located root parent) (hnode : parent.node = .mk name properties children)
      (hchild : children[number]? = some node) : Located root (.child parent number node)

/-- The place or one above it. -/
inductive AtOrAbove : Place → Place → Prop where
  | here (place : Place) : AtOrAbove place place
  | above {place parent : Place} (number : Nat) (node : Node) (h : AtOrAbove place parent) :
      AtOrAbove place (.child parent number node)

/-- The node's own status is absent or says that it is enabled. -/
def StatusOkay (node : Node) : Prop :=
  ∀ tokens, node.property "status" = some tokens →
    stringValues tokens = ["ok"] ∨ stringValues tokens = ["okay"]

/-- The status of the node and of those above it. -/
def Enabled (place : Place) : Prop := ∀ upper, AtOrAbove upper place → StatusOkay upper.node

/-- A tuple of non-zero size in the `reg` of a node whose bus has sizes. -/
inductive RegTuple : Place → Range → Prop where
  | tuple {parent : Place} {number : Nat} {node : Node} {tokens : List Token} {cells : List Nat}
      {addressCells sizeCells : Nat} {tuple : List Nat}
      (hreg : node.property "reg" = some tokens)
      (hcells : cellValues tokens ((Place.child parent number node).path ++ ":reg") = .ok cells)
      (haddress : inheritedCells parent "#address-cells" 2 = .ok addressCells)
      (hsize : inheritedCells parent "#size-cells" 1 = .ok sizeCells) (hsized : sizeCells ≠ 0)
      (htuple : tuple ∈ tuples (addressCells + sizeCells) cells)
      (hnonzero : cellsToInteger (tuple.drop addressCells) ≠ 0) :
      RegTuple (.child parent number node)
        ⟨cellsToInteger (tuple.take addressCells), cellsToInteger (tuple.drop addressCells)⟩

/-- The nearest bus without `ranges`, from a bus up. -/
inductive NearestUnmapped : Place → Place → Prop where
  | here {parent : Place} {number : Nat} {node : Node} (h : node.property "ranges" = none) :
      NearestUnmapped (.child parent number node) (.child parent number node)
  | above {parent bus : Place} {number : Nat} {node : Node} (h : node.property "ranges" ≠ none)
      (hbus : NearestUnmapped parent bus) : NearestUnmapped (.child parent number node) bus

/-- The addresses of a range. -/
def Range.addresses (range : Range) : Set Nat := Set.Ico range.address range.stop

section Rules

-- which values of `ranges` are the identity
variable (Identity : List Token → Prop)

/-- A bus maps an interval: an entry that contains it moves it by its offset. -/
inductive Maps : Place → Range → Range → Prop where
  | identity {parent : Place} {number : Nat} {node : Node} {tokens : List Token}
      (resource : Range) (hranges : node.property "ranges" = some tokens)
      (hidentity : Identity tokens) : Maps (.child parent number node) resource resource
  | entry {parent : Place} {number : Nat} {node : Node} {tokens : List Token} {cells : List Nat}
      {childCells parentCells sizeCells : Nat} {tuple : List Nat} {resource : Range}
      (hranges : node.property "ranges" = some tokens)
      (hcells : cellValues tokens ((Place.child parent number node).path ++ ":ranges") = .ok cells)
      (hchild : inheritedCells (.child parent number node) "#address-cells" 2 = .ok childCells)
      (hparent : inheritedCells parent "#address-cells" 2 = .ok parentCells)
      (hsize : inheritedCells (.child parent number node) "#size-cells" 1 = .ok sizeCells)
      (htuple : tuple ∈ tuples (childCells + parentCells + sizeCells) cells)
      (hcontains : resource.addresses ⊆
        Range.addresses ⟨cellsToInteger (tuple.take childCells),
          cellsToInteger (tuple.drop (childCells + parentCells))⟩) :
      Maps (.child parent number node) resource
        ⟨cellsToInteger ((tuple.drop childCells).take parentCells) +
          (resource.address - cellsToInteger (tuple.take childCells)), resource.size⟩

/-- The buses from one up to the root map an interval of the bus to one of the root. -/
inductive Translates : Place → Range → Range → Prop where
  | root (node : Node) (resource : Range) : Translates (.root node) resource resource
  | bus {parent : Place} {number : Nat} {node : Node} {resource middle physical : Range}
      (hmap : Maps Identity (.child parent number node) resource middle)
      (habove : Translates parent middle physical) :
      Translates (.child parent number node) resource physical

variable (leases : List Range)

/-- The tuple is off the leases, or covered by a controller whose tuples are. -/
inductive Cleared : Place → Range → Prop where
  | translated {parent : Place} {number : Nat} {node : Node} {resource physical : Range}
      (htranslates : Translates Identity parent resource physical)
      (hdisjoint : ∀ lease ∈ leases, Disjoint physical.addresses lease.addresses) :
      Cleared (.child parent number node) resource
  | covered {parent bus controller : Place} {number : Nat} {node : Node} {resource own : Range}
      (hbus : NearestUnmapped parent bus) (hcontroller : AtOrAbove controller bus)
      (henabled : Enabled controller) (hown : RegTuple controller own)
      (hcleared : ∀ resource, RegTuple controller resource → Cleared controller resource) :
      Cleared (.child parent number node) resource

/-- The property of the guard: every tuple of an enabled node outside the control node is
cleared. -/
def Guards (root : Node) (control : Place) : Prop :=
  ∀ place, Located root place →
    (∀ upper, AtOrAbove upper place → upper.address ≠ control.address) → Enabled place →
    ∀ resource, RegTuple place resource → Cleared Identity leases place resource

end Rules

/-! ## The walk sees every place -/

mutual

theorem walk_from_child (place : Place) :
    ∀ (node : Node), place.node = node → ∀ upper ∈ walkFrom place node,
      ∀ name properties children, upper.node = .mk name properties children →
      ∀ number child, children[number]? = some child →
      Place.child upper number child ∈ walkFrom place node
  | .mk name properties children => by
      intro hplace upper hupper name' properties' children' hnode number child hchild
      rw [walkFrom] at hupper ⊢
      rcases List.mem_cons.1 hupper with rfl | hupper
      · rw [hplace] at hnode
        injection hnode with hname hproperties hchildren
        subst hchildren
        have hmem := walk_children_mem upper children 0 number child hchild
        rw [Nat.zero_add] at hmem
        exact List.mem_cons_of_mem _ hmem
      · exact List.mem_cons_of_mem _
          (walk_children_child place children 0 upper hupper name' properties' children' hnode
            number child hchild)

theorem walk_children_child (parent : Place) :
    ∀ (nodes : List Node) (first : Nat), ∀ upper ∈ walkChildren parent first nodes,
      ∀ name properties children, upper.node = .mk name properties children →
      ∀ number child, children[number]? = some child →
      Place.child upper number child ∈ walkChildren parent first nodes
  | [] => by
      intro first upper hupper
      simp [walkChildren] at hupper
  | node :: rest => by
      intro first upper hupper name properties children hnode number child hchild
      rw [walkChildren] at hupper ⊢
      rcases List.mem_append.1 hupper with hupper | hupper
      · exact List.mem_append_left _ (walk_from_child (.child parent first node) node rfl upper
          hupper name properties children hnode number child hchild)
      · exact List.mem_append_right _ (walk_children_child parent rest (first + 1) upper hupper
          name properties children hnode number child hchild)

theorem walk_children_mem (parent : Place) :
    ∀ (nodes : List Node) (first number : Nat) (child : Node), nodes[number]? = some child →
      Place.child parent (first + number) child ∈ walkChildren parent first nodes
  | [] => by
      intro first number child hchild
      simp at hchild
  | node :: rest => by
      intro first number child hchild
      rw [walkChildren]
      cases number with
      | zero =>
          have hnode : node = child := by simpa using hchild
          subst hnode
          cases node with
          | mk name properties children =>
              rw [walkFrom]
              exact List.mem_append_left _ List.mem_cons_self
      | succ number =>
          have hmem := walk_children_mem parent rest (first + 1) number child (by simpa using hchild)
          rw [Nat.add_right_comm] at hmem
          exact List.mem_append_right _ hmem

end

theorem Located.mem_walk {root : Node} {place : Place} (h : Located root place) :
    place ∈ walk root := by
  induction h with
  | root =>
      cases root with
      | mk name properties children =>
          rw [walk, walkFrom]
          exact List.mem_cons_self
  | child hparent hnode hchild ih =>
      exact walk_from_child _ _ rfl _ ih _ _ _ hnode _ _ hchild

theorem Located.at_or_above {root : Node} {upper place : Place} (habove : AtOrAbove upper place)
    (h : Located root place) : Located root upper := by
  induction habove with
  | here => exact h
  | above number node habove ih =>
      cases h with
      | child hparent hnode hchild => exact ih hparent

theorem AtOrAbove.trans {upper middle place : Place} (h : AtOrAbove upper middle)
    (h' : AtOrAbove middle place) : AtOrAbove upper place := by
  induction h' with
  | here => exact h
  | above number node _ ih => exact .above number node ih

/-! ## What the guard's functions return -/

theorem status_okay_of_enabled {place : Place} (h : StatusOkay place.node) :
    statusOkay place = .ok true := by
  unfold statusOkay
  cases hstatus : place.node.property "status" with
  | none => rfl
  | some tokens =>
      rcases h tokens hstatus with hvalue | hvalue <;> simp [hvalue]

theorem node_enabled_of_enabled {place : Place} (h : Enabled place) :
    nodeEnabled place = .ok true := by
  induction place with
  | root node => exact status_okay_of_enabled (h _ (.here _))
  | child parent number node ih =>
      rw [nodeEnabled, status_okay_of_enabled (h _ (.here _))]
      exact ih fun upper hupper => h upper (.above number node hupper)

theorem mem_decode_tuples {path : String} {addressCells : Nat} {list : List (List Nat)}
    {resources : List Range} (h : decodeTuples path addressCells list = .ok resources)
    (resource : Range) : resource ∈ resources ↔ resource.size ≠ 0 ∧ ∃ tuple ∈ list,
      resource = ⟨cellsToInteger (tuple.take addressCells),
        cellsToInteger (tuple.drop addressCells)⟩ := by
  induction list generalizing resources with
  | nil =>
      cases h
      simp
  | cons tuple rest ih =>
      simp only [decodeTuples] at h
      split at h
      · rename_i hzero
        rw [ih h]
        constructor
        · rintro ⟨hsize, other, hother, heq⟩
          exact ⟨hsize, other, List.mem_cons_of_mem _ hother, heq⟩
        · rintro ⟨hsize, other, hother, heq⟩
          rcases List.mem_cons.1 hother with rfl | hother
          · exact absurd (by rw [heq]; exact hzero) hsize
          · exact ⟨hsize, other, hother, heq⟩
      · rename_i hsize
        split at h
        · cases h
        · obtain ⟨others, hothers, rfl⟩ := map_ok_iff.mp h
          rw [List.mem_cons, ih hothers]
          constructor
          · rintro (heq | ⟨hsize', other, hother, heq⟩)
            · exact ⟨by rw [heq]; exact hsize, tuple, List.mem_cons_self, heq⟩
            · exact ⟨hsize', other, List.mem_cons_of_mem _ hother, heq⟩
          · rintro ⟨hsize', other, hother, heq⟩
            rcases List.mem_cons.1 hother with rfl | hother
            · exact .inl heq
            · exact .inr ⟨hsize', other, hother, heq⟩

/-- `decode_reg` returns the tuples of the `reg`. -/
theorem mem_decode_reg {place : Place} {resources : List Range}
    (h : decodeReg place = .ok resources) (resource : Range) :
    resource ∈ resources ↔ RegTuple place resource := by
  cases place with
  | root node =>
      cases h
      constructor
      · intro hmem
        cases hmem
      · intro htuple
        cases htuple
  | child parent number node =>
      simp only [decodeReg] at h
      split at h
      · rename_i hreg
        cases h
        constructor
        · intro hmem
          cases hmem
        · intro htuple
          cases htuple with
          | tuple hreg' =>
              rw [hreg] at hreg'
              cases hreg'
      · rename_i tokens hreg
        obtain ⟨addressCells, haddress, h⟩ := bind_ok_iff.mp h
        obtain ⟨sizeCells, hsize, h⟩ := bind_ok_iff.mp h
        split at h
        · rename_i hzero
          cases h
          constructor
          · intro hmem
            cases hmem
          · intro htuple
            cases htuple with
            | tuple _ _ _ hsize' hsized =>
                rw [hsize] at hsize'
                cases hsize'
                exact absurd hzero hsized
        · rename_i hsized
          split at h
          · cases h
          · obtain ⟨cells, hcells, h⟩ := bind_ok_iff.mp h
            split at h
            · cases h
            · rw [mem_decode_tuples h]
              constructor
              · rintro ⟨hnonzero, tuple, htuple, rfl⟩
                exact .tuple hreg hcells haddress hsize hsized htuple hnonzero
              · intro htuple
                cases htuple with
                | tuple hreg' hcells' haddress' hsize' _ htuple hnonzero =>
                    rw [hreg] at hreg'
                    cases hreg'
                    rw [hcells] at hcells'
                    cases hcells'
                    rw [haddress] at haddress'
                    cases haddress'
                    rw [hsize] at hsize'
                    cases hsize'
                    exact ⟨hnonzero, _, htuple, rfl⟩

/-- The `ranges` the guard takes for the identity. -/
def NoCells (tokens : List Token) : Prop := ∃ description, cellValues tokens description = .ok []

theorem map_through_some {path : String} {childCells parentCells : Nat} {resource result : Range}
    {list : List (List Nat)}
    (h : mapThrough path childCells parentCells resource list = .ok (some result)) :
    ∃ tuple ∈ list, resource.addresses ⊆ Range.addresses ⟨cellsToInteger (tuple.take childCells),
        cellsToInteger (tuple.drop (childCells + parentCells))⟩ ∧
      result = ⟨cellsToInteger ((tuple.drop childCells).take parentCells) +
        (resource.address - cellsToInteger (tuple.take childCells)), resource.size⟩ := by
  induction list with
  | nil => cases h
  | cons tuple rest ih =>
      simp only [mapThrough] at h
      split at h
      · cases h
      · split at h
        · rename_i hcontains
          split at h
          · cases h
          · refine ⟨tuple, List.mem_cons_self, Set.Ico_subset_Ico hcontains.1 hcontains.2, ?_⟩
            have hresult := Option.some.inj (Except.ok.inj h)
            rw [← hresult, Nat.add_sub_assoc hcontains.1]
        · obtain ⟨other, hother, hspec⟩ := ih h
          exact ⟨other, List.mem_cons_of_mem _ hother, hspec⟩

/-- A bus that translates an interval maps it by the rules. -/
theorem translate_one_some {parent : Place} {number : Nat} {node : Node} {resource result : Range}
    (h : translateOne resource (.child parent number node) = .ok (some result)) :
    Maps NoCells (.child parent number node) resource result := by
  simp only [translateOne] at h
  split at h
  · cases h
  · rename_i tokens hranges
    obtain ⟨cells, hcells, h⟩ := bind_ok_iff.mp h
    split at h
    · rename_i hnil
      have hresult := Option.some.inj (Except.ok.inj h)
      rw [← hresult]
      exact .identity resource hranges ⟨_, hnil ▸ hcells⟩
    · obtain ⟨childCells, hchild, h⟩ := bind_ok_iff.mp h
      obtain ⟨parentCells, hparent, h⟩ := bind_ok_iff.mp h
      obtain ⟨sizeCells, hsize, h⟩ := bind_ok_iff.mp h
      split at h
      · cases h
      · obtain ⟨tuple, htuple, hcontains, rfl⟩ := map_through_some h
        exact .entry hranges hcells hchild hparent hsize htuple hcontains

theorem translate_one_mapped {parent : Place} {number : Nat} {node : Node}
    {resource result : Range}
    (h : translateOne resource (.child parent number node) = .ok (some result)) :
    node.property "ranges" ≠ none := by
  intro hnone
  simp [translateOne, hnone] at h

/-- A bus behind a controller has no `ranges` and a register of its own above or on it. -/
theorem enclosing_controller_true {bus : Place} (h : enclosingController bus = .ok true) :
    NearestUnmapped bus bus ∧ ∃ controller own, AtOrAbove controller bus ∧
      RegTuple controller own := by
  induction bus with
  | root node => cases h
  | child parent number node ih =>
      rw [enclosingController] at h
      split at h
      · cases h
      · rename_i hranges
        have hnone : node.property "ranges" = none := by simpa using hranges
        refine ⟨.here hnone, ?_⟩
        obtain ⟨resources, hresources, h⟩ := bind_ok_iff.mp h
        split at h
        · rename_i hsome
          obtain ⟨own, hown⟩ := List.exists_mem_of_ne_nil _ hsome
          exact ⟨_, own, .here _, (mem_decode_reg hresources own).1 hown⟩
        · obtain ⟨_, controller, own, habove, hown⟩ := ih h
          exact ⟨controller, own, .above number node habove, hown⟩

/-- The way up from a bus ends at the root or behind a controller. -/
theorem physical_from_ok {place bus : Place} {resource : Range} {result : Option Range}
    (h : physicalFrom place resource bus = .ok result) :
    (∃ physical, result = some physical ∧ Translates NoCells bus resource physical) ∨
      (result = none ∧ ∃ unmapped controller own, NearestUnmapped bus unmapped ∧
        AtOrAbove controller unmapped ∧ AtOrAbove unmapped bus ∧ RegTuple controller own) := by
  induction bus generalizing resource with
  | root node =>
      rw [physicalFrom] at h
      exact .inl ⟨resource, (Except.ok.inj h).symm, .root node resource⟩
  | child parent number node ih =>
      rw [physicalFrom] at h
      obtain ⟨translated, htranslated, h⟩ := bind_ok_iff.mp h
      cases translated with
      | none =>
          obtain ⟨enclosed, henclosed, h⟩ := bind_ok_iff.mp h
          cases enclosed with
          | false => cases h
          | true =>
              obtain ⟨hnearest, controller, own, habove, hown⟩ :=
                enclosing_controller_true henclosed
              exact .inr ⟨(Except.ok.inj h).symm, _, controller, own, hnearest, habove, .here _, hown⟩
      | some middle =>
          have hmap := translate_one_some htranslated
          rcases ih h with ⟨physical, hresult, htranslates⟩ |
            ⟨hresult, unmapped, controller, own, hnearest, habove, hunmapped, hown⟩
          · exact .inl ⟨physical, hresult, .bus hmap htranslates⟩
          · exact .inr ⟨hresult, unmapped, controller, own,
              .above (translate_one_mapped htranslated) hnearest, habove,
              .above number node hunmapped, hown⟩

theorem check_physical_ok {path : String} {physical : Range} {leases : List Range}
    (h : checkPhysical path physical leases = .ok ()) :
    ∀ lease ∈ leases, Disjoint physical.addresses lease.addresses := by
  induction leases with
  | nil =>
      intro lease hlease
      cases hlease
  | cons first rest ih =>
      rw [checkPhysical] at h
      split at h
      · cases h
      · rename_i hoverlaps
        intro lease hlease
        rcases List.mem_cons.1 hlease with rfl | hlease
        · have hapart : ¬ (physical.address < lease.stop ∧ lease.address < physical.stop) := by
            simpa [Range.overlaps] using hoverlaps
          rw [Set.disjoint_left]
          intro address hphysical hleased
          exact hapart ⟨Nat.lt_of_le_of_lt hphysical.1 hleased.2,
            Nat.lt_of_le_of_lt hleased.1 hphysical.2⟩
        · exact ih h lease hlease

theorem check_resources_ok {place : Place} {leases resources : List Range}
    (h : checkResources place leases resources = .ok ()) :
    ∀ resource ∈ resources, ∃ result, physicalResource resource place = .ok result ∧
      ∀ physical, result = some physical →
        ∀ lease ∈ leases, Disjoint physical.addresses lease.addresses := by
  induction resources with
  | nil =>
      intro resource hmem
      cases hmem
  | cons first rest ih =>
      rw [checkResources] at h
      obtain ⟨result, hresult, h⟩ := bind_ok_iff.mp h
      intro resource hmem
      cases result with
      | none =>
          rcases List.mem_cons.1 hmem with rfl | hmem
          · exact ⟨none, hresult, fun physical hsome => by cases hsome⟩
          · exact ih h resource hmem
      | some physical =>
          obtain ⟨⟨⟩, hcheck, h⟩ := bind_ok_iff.mp h
          rcases List.mem_cons.1 hmem with rfl | hmem
          · refine ⟨some physical, hresult, ?_⟩
            intro other hother
            cases hother
            exact check_physical_ok hcheck
          · exact ih h resource hmem

theorem verify_nodes_ok {control : Place} {leases : List Range} {places : List Place}
    (h : verifyNodes control leases places = .ok ()) :
    ∀ place ∈ places, verifyNode control leases place = .ok () := by
  induction places with
  | nil =>
      intro place hmem
      cases hmem
  | cons first rest ih =>
      rw [verifyNodes] at h
      obtain ⟨⟨⟩, hfirst, hrest⟩ := bind_ok_iff.mp h
      intro place hmem
      rcases List.mem_cons.1 hmem with rfl | hmem
      · exact hfirst
      · exact ih hrest place hmem

/-- What a node that passes is checked for. -/
theorem verify_node_ok {control parent : Place} {leases : List Range} {number : Nat} {node : Node}
    (h : verifyNode control leases (.child parent number node) = .ok ())
    (hother : (Place.child parent number node).address ≠ control.address)
    (henabled : Enabled (.child parent number node)) :
    ∃ resources, decodeReg (.child parent number node) = .ok resources ∧
      checkResources (.child parent number node) leases resources = .ok () := by
  rw [verifyNode, if_neg hother, node_enabled_of_enabled henabled] at h
  exact bind_ok_iff.mp h

/-! ## The guard -/

/-- A node that passes is cleared, if the nodes above it are. -/
theorem cleared_of_verified {control parent : Place} {leases : List Range} {number : Nat}
    {node : Node} (h : verifyNode control leases (.child parent number node) = .ok ())
    (hother : (Place.child parent number node).address ≠ control.address)
    (henabled : Enabled (.child parent number node))
    (habove : ∀ upper, AtOrAbove upper parent → ∀ resource, RegTuple upper resource →
      Cleared NoCells leases upper resource)
    {resource : Range} (htuple : RegTuple (.child parent number node) resource) :
    Cleared NoCells leases (.child parent number node) resource := by
  obtain ⟨resources, hresources, hchecked⟩ := verify_node_ok h hother henabled
  have hmem := (mem_decode_reg hresources resource).2 htuple
  obtain ⟨result, hphysical, hdisjoint⟩ := check_resources_ok hchecked resource hmem
  rcases physical_from_ok hphysical with ⟨physical, hresult, htranslates⟩ |
    ⟨_, unmapped, controller, own, hnearest, hcontroller, hunmapped, hown⟩
  · exact .translated htranslates (hdisjoint physical hresult)
  · have hupper := hcontroller.trans hunmapped
    exact .covered hnearest hcontroller
      (fun upper hup => henabled upper (.above number node (hup.trans hupper))) hown
      (habove controller hupper)

theorem guards_of_verified {root : Node} {control : Place} {leases : List Range}
    (h : verifyNodes control leases (walk root) = .ok ()) : Guards NoCells leases root control := by
  intro place hlocated houtside henabled
  -- for the place and everything above it, since a tuple may be cleared by a controller above
  suffices hall : ∀ upper, AtOrAbove upper place → ∀ resource, RegTuple upper resource →
      Cleared NoCells leases upper resource from hall place (.here place)
  induction place with
  | root node =>
      intro upper hupper resource htuple
      cases hupper
      cases htuple
  | child parent number node ih =>
      have hparent : ∀ upper, AtOrAbove upper parent → ∀ resource, RegTuple upper resource →
          Cleared NoCells leases upper resource :=
        ih (hlocated.at_or_above (.above number node (.here parent)))
          (fun upper hupper => houtside upper (.above number node hupper))
          (fun upper hupper => henabled upper (.above number node hupper))
      intro upper hupper resource htuple
      cases hupper with
      | here =>
          exact cleared_of_verified (verify_nodes_ok h _ hlocated.mem_walk)
            (houtside _ (.here _)) henabled hparent htuple
      | above _ _ hupper => exact hparent upper hupper resource htuple

/-- A tree with leases that passes has every tuple of its enabled nodes cleared; a tuple that is
not makes the guard fail. -/
theorem guard_clears {root : Node} {control : Place} {leases : List Range}
    (hmetadata : leaseMetadata root = .ok (control, leases)) (hleases : leases ≠ []) :
    (verifyTree root = .ok () → Guards NoCells leases root control) ∧
    ∀ place, Located root place →
      (∀ upper, AtOrAbove upper place → upper.address ≠ control.address) → Enabled place →
      ∀ resource, RegTuple place resource → ¬ Cleared NoCells leases place resource →
      ∃ error, verifyTree root = .error error := by
  have hguards : verifyTree root = .ok () → Guards NoCells leases root control := by
    intro h
    rw [verifyTree, hmetadata] at h
    obtain ⟨_, hpair, h⟩ := bind_ok_iff.mp h
    cases hpair
    exact guards_of_verified (by simpa [hleases] using h)
  refine ⟨hguards, ?_⟩
  intro place hlocated houtside henabled resource htuple hnot
  cases hresult : verifyTree root with
  | ok value => exact absurd (hguards hresult place hlocated houtside henabled resource htuple) hnot
  | error error => exact ⟨error, rfl⟩

/-! ## A tree -/

/-- The tokens of a list of cells. -/
def cellTokens (atoms : List String) : List Token :=
  ⟨.symbol, "<"⟩ :: (atoms.map fun atom => ⟨.atom, atom⟩) ++ [⟨.symbol, ">"⟩]

/-- The tokens of a list of bytes. -/
def byteTokens (atoms : List String) : List Token :=
  ⟨.symbol, "["⟩ :: (atoms.map fun atom => ⟨.atom, atom⟩) ++ [⟨.symbol, "]"⟩]

/-- A control node with a lease of one UART. -/
def uartControl : Node :=
  .mk "c906l-control" [("compatible", [⟨.string, controlCompatible⟩]),
    (leaseMaskProperty, cellTokens ["0x1"]), (leaseNamesProperty, [⟨.string, "uart1"⟩]),
    (leaseRangesProperty, cellTokens ["0x0", "0x04150000", "0x0", "0x1000"]),
    (leaseRangeOwnersProperty, [⟨.string, "uart1"⟩])] []

/-- A device behind a bus with the given `ranges`. -/
def serialBus (ranges : List Token) : Node :=
  .mk "soc" [("#address-cells", cellTokens ["0x1"]), ("#size-cells", cellTokens ["0x1"]),
    ("ranges", ranges)] [.mk "serial@0" [("reg", cellTokens ["0x0", "0x1000"])] []]

/-- The two under a root. -/
def uartTree (ranges : List Token) : Node :=
  .mk "/" [("#address-cells", cellTokens ["0x1"]), ("#size-cells", cellTokens ["0x1"])]
    [uartControl, serialBus ranges]

/-- The place of the device in that tree. -/
def serialPlace (ranges : List Token) : Place :=
  .child (.child (.root (uartTree ranges)) 1 (serialBus ranges)) 0
    (.mk "serial@0" [("reg", cellTokens ["0x0", "0x1000"])] [])

theorem located_serial (ranges : List Token) :
    Located (uartTree ranges) (serialPlace ranges) :=
  .child (.child .root rfl rfl) rfl rfl

theorem status_okay_of_absent {node : Node} (h : node.property "status" = none) :
    StatusOkay node := by
  intro tokens htokens
  rw [h] at htokens
  cases htokens

theorem enabled_serial (ranges : List Token) : Enabled (serialPlace ranges) := by
  intro upper hupper
  cases hupper with
  | here => exact status_okay_of_absent rfl
  | above _ _ hupper =>
      cases hupper with
      | here => exact status_okay_of_absent rfl
      | above _ _ hupper =>
          cases hupper
          exact status_okay_of_absent rfl

theorem outside_serial (ranges : List Token) :
    ∀ upper, AtOrAbove upper (serialPlace ranges) → upper.address ≠ [0] := by
  intro upper hupper
  cases hupper with
  | here => simp [serialPlace, Place.address]
  | above _ _ hupper =>
      cases hupper with
      | here => simp [Place.address]
      | above _ _ hupper =>
          cases hupper
          simp [Place.address]

theorem reg_tuple_serial (ranges : List Token) :
    RegTuple (serialPlace ranges) ⟨0, 0x1000⟩ := by
  have hreg : decodeReg (serialPlace ranges) = .ok [⟨0, 0x1000⟩] := by rfl
  exact (mem_decode_reg hreg _).1 List.mem_cons_self

/-- A device that the bus maps beside the lease. -/
theorem guard_clears_beside_lease :
    let ranges := cellTokens ["0x0", "0x04140000", "0x1000"]
    verifyTree (uartTree ranges) = .ok () ∧
      Cleared NoCells [⟨0x04150000, 0x1000⟩] (serialPlace ranges) ⟨0, 0x1000⟩ := by
  intro ranges
  have hverified : verifyTree (uartTree ranges) = .ok () := by rfl
  have hmetadata : leaseMetadata (uartTree ranges) =
      .ok (.child (.root (uartTree ranges)) 0 uartControl, [⟨0x04150000, 0x1000⟩]) := by rfl
  exact ⟨hverified, (guard_clears hmetadata (by simp)).1 hverified _ (located_serial ranges)
    (outside_serial ranges) (enabled_serial ranges) _ (reg_tuple_serial ranges)⟩

/-- A `ranges` without strings, numbers or bytes. -/
def NoData (tokens : List Token) : Prop := ∀ token ∈ tokens, token.kind = .symbol

/-- With a `ranges` written as bytes that maps the device onto the lease, the tree passes. -/
theorem byte_ranges_pass :
    ¬ ∀ root control leases, leaseMetadata root = .ok (control, leases) → leases ≠ [] →
      verifyTree root = .ok () → Guards NoData leases root control := by
  intro h
  let ranges := byteTokens
    ["00", "00", "00", "00", "04", "15", "00", "00", "00", "00", "10", "00"]
  have hverified : verifyTree (uartTree ranges) = .ok () := by rfl
  have hmetadata : leaseMetadata (uartTree ranges) =
      .ok (.child (.root (uartTree ranges)) 0 uartControl, [⟨0x04150000, 0x1000⟩]) := by rfl
  have hranges : (serialBus ranges).property "ranges" = some ranges := by rfl
  have hcleared := h _ _ _ hmetadata (by simp) hverified _ (located_serial ranges)
    (outside_serial ranges) (enabled_serial ranges) _ (reg_tuple_serial ranges)
  cases hcleared with
  | translated htranslates hdisjoint =>
      cases htranslates with
      | bus hmap habove =>
          cases hmap with
          | identity resource hranges' hidentity =>
              rw [hranges] at hranges'
              cases hranges'
              exact absurd (hidentity ⟨.atom, "00"⟩ (by decide)) (by decide)
          | entry hranges' hcells hchild hparent hsize htuple hcontains =>
              rw [hranges] at hranges'
              cases hranges'
              have hnone : ∀ description, cellValues ranges description = .ok [] := fun _ => rfl
              rw [hnone] at hcells
              cases hcells
              simp [tuples] at htuple
  | covered hbus hcontroller henabled hown hall =>
      cases hbus with
      | here hnone =>
          rw [hranges] at hnone
          cases hnone
      | above hsome hbus => cases hbus

end NanoKvm.DeviceTree
