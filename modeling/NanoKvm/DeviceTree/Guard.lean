import NanoKvm.DeviceTree.Tree

/-!
# The lease guard

`verify_tree` of `verify-c906l-leases.py` with everything it calls: which nodes are enabled, the
tuples of their `reg`, the way of a tuple through the `ranges` of the buses above it, and the
leased ranges the control node names.
-/

namespace NanoKvm.DeviceTree

def controlCompatible : String := "sophgo,sg2002-c906l-control"
def leaseMaskProperty : String := "sophgo,lease-mask"
def leaseNamesProperty : String := "sophgo,leased-peripherals"
def leaseRangesProperty : String := "sophgo,c906l-leased-mmio-ranges"
def leaseRangeOwnersProperty : String := "sophgo,c906l-leased-mmio-range-owners"
def c906lIrqsProperty : String := "sophgo,c906l-local-irqs"
def c906lIrqOwnersProperty : String := "sophgo,c906l-local-irq-owners"

/-! ## All nodes -/

mutual

/-- `walk` from a node whose place is known. -/
def walkFrom (place : Place) : Node → List Place
  | .mk _ _ children => place :: walkChildren place 0 children

/-- `walk` over the children from a number on. -/
def walkChildren (parent : Place) (number : Nat) : List Node → List Place
  | [] => []
  | node :: rest =>
      walkFrom (.child parent number node) node ++ walkChildren parent (number + 1) rest

end

/-- `walk` -/
def walk (root : Node) : List Place := walkFrom (.root root) root

/-! ## Nodes and their registers -/

/-- What the loop of `node_enabled` asks of one node. -/
def statusOkay (place : Place) : Except LeaseGuardError Bool :=
  match place.node.property "status" with
  | none => .ok true
  | some tokens =>
      match stringValues tokens with
      | [value] => .ok (value = "ok" || value = "okay")
      | _ => .error (.statusNotOneString place.path)

/-- `node_enabled` -/
def nodeEnabled : Place → Except LeaseGuardError Bool
  | .root node => statusOkay (.root node)
  | .child parent number node => do
      if ← statusOkay (.child parent number node) then nodeEnabled parent else .ok false

/-- The loop of `decode_reg` over the tuples. -/
def decodeTuples (path : String) (addressCells : Nat) :
    List (List Nat) → Except LeaseGuardError (List Range)
  | [] => .ok []
  | tuple :: rest =>
      let address := cellsToInteger (tuple.take addressCells)
      let size := cellsToInteger (tuple.drop addressCells)
      if size = 0 then decodeTuples path addressCells rest
      else if address ≥ u64Limit ∨ size ≥ u64Limit ∨ address + size > u64Limit then
        .error (.regExceeds64Bits path)
      else (decodeTuples path addressCells rest).map (⟨address, size⟩ :: ·)

/-- `decode_reg` -/
def decodeReg : Place → Except LeaseGuardError (List Range)
  | .root _ => .ok []
  | .child parent number node =>
      let path := (Place.child parent number node).path
      match node.property "reg" with
      | none => .ok []
      | some tokens => do
          let addressCells ← inheritedCells parent "#address-cells" 2
          let sizeCells ← inheritedCells parent "#size-cells" 1
          if sizeCells = 0 then .ok []
          else if addressCells = 0 ∨ addressCells + sizeCells = 0 then .error (.noAddressCells path)
          else do
            let cells ← cellValues tokens (path ++ ":reg")
            if cells.length % (addressCells + sizeCells) ≠ 0 then
              .error (.regTuples path cells.length (addressCells + sizeCells))
            else decodeTuples path addressCells (tuples (addressCells + sizeCells) cells)

/-! ## Translation -/

/-- The loop of `translate_one` over the entries of `ranges`. -/
def mapThrough (path : String) (childCells parentCells : Nat) (resource : Range) :
    List (List Nat) → Except LeaseGuardError (Option Range)
  | [] => .ok none
  | tuple :: rest =>
      let child := cellsToInteger (tuple.take childCells)
      let parent := cellsToInteger ((tuple.drop childCells).take parentCells)
      let size := cellsToInteger (tuple.drop (childCells + parentCells))
      if size = 0 ∨ child + size > u64Limit ∨ parent + size > u64Limit then
        .error (.rangesInvalid path)
      else if child ≤ resource.address ∧ resource.stop ≤ child + size then
        let translated := parent + resource.address - child
        if translated + resource.size > u64Limit then .error (.translationExceeds64Bits path)
        else .ok (some ⟨translated, resource.size⟩)
      else mapThrough path childCells parentCells resource rest

/-- `translate_one` -/
def translateOne (resource : Range) : Place → Except LeaseGuardError (Option Range)
  | .root _ => .ok (some resource)
  | .child parent number node =>
      let bus := Place.child parent number node
      match node.property "ranges" with
      | none => .ok none
      | some tokens => do
          let cells ← cellValues tokens (bus.path ++ ":ranges")
          if cells = [] then .ok (some resource)
          else do
            let childCells ← inheritedCells bus "#address-cells" 2
            let parentCells ← inheritedCells parent "#address-cells" 2
            let sizeCells ← inheritedCells bus "#size-cells" 1
            let width := childCells + parentCells + sizeCells
            if childCells = 0 ∨ sizeCells = 0 ∨ cells.length % width ≠ 0 then
              .error (.rangesTuples bus.path cells.length width)
            else mapThrough bus.path childCells parentCells resource (tuples width cells)

/-- `enclosing_controller` -/
def enclosingController : Place → Except LeaseGuardError Bool
  | .root _ => .ok false
  | .child parent number node =>
      if (node.property "ranges").isSome then .ok false
      else do
        let resources ← decodeReg (.child parent number node)
        if resources ≠ [] then .ok true else enclosingController parent

/-- The loop of `physical_resource` from a bus up. -/
def physicalFrom (place : Place) : Range → Place → Except LeaseGuardError (Option Range)
  | current, .root _ => .ok (some current)
  | current, .child parent number node => do
      match ← translateOne current (.child parent number node) with
      | none =>
          if ← enclosingController (.child parent number node) then .ok none
          else .error (.cannotTranslate place.path (Place.child parent number node).path)
      | some translated => physicalFrom place translated parent

/-- `physical_resource` -/
def physicalResource (resource : Range) (place : Place) :
    Except LeaseGuardError (Option Range) :=
  match place with
  | .root _ => .error (.noParentBus place.path)
  | .child parent _ _ => physicalFrom place resource parent

/-! ## Leases -/

/-- The cells of a property of the control node, none if it is absent. -/
def controlCells (control : Place) (name : String) : Except LeaseGuardError (List Nat) :=
  cellValues ((control.node.property name).getD []) (control.path ++ ":" ++ name)

/-- The strings of a property of the control node. -/
def controlStrings (control : Place) (name : String) : List String :=
  stringValues ((control.node.property name).getD [])

/-- `int.bit_count` of a number of at most two cells. -/
def bitCount (mask : Nat) : Nat := ((List.range 64).filter mask.testBit).length

/-- The loop of `lease_metadata` over the leased ranges. -/
def leaseRanges (path : String) (ranges : List Range) :
    List (List Nat) → Except LeaseGuardError (List Range)
  | [] => .ok ranges
  | tuple :: rest =>
      let item : Range := ⟨cellsToInteger (tuple.take 2), cellsToInteger (tuple.drop 2)⟩
      if item.size = 0 ∨ item.address + item.size > u64Limit then
        .error (.leaseRangeInvalid path)
      else if ranges.any item.overlaps then .error (.leaseRangesOverlap path)
      else leaseRanges path (ranges ++ [item]) rest

/-- The places of the control nodes. -/
def controlPlaces (root : Node) : List Place :=
  (walk root).filter fun place =>
    controlCompatible ∈ stringValues ((place.node.property "compatible").getD [])

/-- `lease_metadata` for the control node. -/
def controlLeases (control : Place) : Except LeaseGuardError (List Range) := do
  let maskCells ← controlCells control leaseMaskProperty
  if maskCells = [] ∨ maskCells.length > 2 then .error (.leaseMask control.path)
  else do
    let mask := cellsToInteger maskCells
    let names := controlStrings control leaseNamesProperty
    let rangeCells ← controlCells control leaseRangesProperty
    let rangeOwners := controlStrings control leaseRangeOwnersProperty
    let irqs ← controlCells control c906lIrqsProperty
    let irqOwners := controlStrings control c906lIrqOwnersProperty
    if mask = 0 then
      if names ≠ [] ∨ rangeCells ≠ [] ∨ rangeOwners ≠ [] ∨ irqs ≠ [] ∨ irqOwners ≠ [] then
        .error (.metadataWithoutMask control.path)
      else .ok []
    else if names.length ≠ bitCount mask ∨ ¬ names.Nodup then .error (.peripheralNames control.path)
    else if rangeCells.length = 0 ∨ rangeCells.length % 4 ≠ 0 then
      .error (.leaseRangePairs control.path)
    else if rangeOwners.length ≠ rangeCells.length / 4 then
      .error (.rangeOwnersLength control.path)
    else if ¬ (rangeOwners ⊆ names ∧ names ⊆ rangeOwners) then
      .error (.rangeOwnersCover control.path)
    else if irqOwners.length ≠ irqs.length ∨ ¬ irqOwners ⊆ names then
      .error (.irqOwners control.path)
    else leaseRanges control.path [] (tuples 4 rangeCells)

/-- `lease_metadata` -/
def leaseMetadata (root : Node) : Except LeaseGuardError (Place × List Range) :=
  match controlPlaces root with
  | [control] => (controlLeases control).map fun leases => (control, leases)
  | controls => .error (.controlNodes controls.length)

/-! ## The guard -/

/-- The loop over the leases for one physical range. -/
def checkPhysical (path : String) (physical : Range) : List Range → Except LeaseGuardError Unit
  | [] => .ok ()
  | lease :: rest =>
      if physical.overlaps lease then .error (.claimsLease path physical lease)
      else checkPhysical path physical rest

/-- The loop over the registers of a node. -/
def checkResources (place : Place) (leases : List Range) :
    List Range → Except LeaseGuardError Unit
  | [] => .ok ()
  | resource :: rest => do
      match ← physicalResource resource place with
      | none => checkResources place leases rest
      | some physical => do
          checkPhysical place.path physical leases
          checkResources place leases rest

/-- What the loop of `verify_tree` does with a node. -/
def verifyNode (control : Place) (leases : List Range) (place : Place) :
    Except LeaseGuardError Unit := do
  if place.address = control.address then .ok ()
  else if ← nodeEnabled place then
    match place with
    | .root _ => .ok ()
    | .child parent number node => do
        let resources ← decodeReg (.child parent number node)
        checkResources (.child parent number node) leases resources
  else .ok ()

/-- The loop over the nodes. -/
def verifyNodes (control : Place) (leases : List Range) :
    List Place → Except LeaseGuardError Unit
  | [] => .ok ()
  | place :: rest => do
      verifyNode control leases place
      verifyNodes control leases rest

/-- `verify_tree` -/
def verifyTree (root : Node) : Except LeaseGuardError Unit := do
  let (control, leases) ← leaseMetadata root
  if leases = [] then .ok () else verifyNodes control leases (walk root)

end NanoKvm.DeviceTree
