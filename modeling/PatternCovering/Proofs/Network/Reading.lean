import PatternCovering.Network.Reader
import PatternCovering.Proofs.Network.Calls

/-!
# Networks that are read

A network that is read keeps its positions as plain data. Where the items of the arcs are integers,
so are all its positions, and reading it comes to calls of the operations, one for each node and each
arc and one for each end: what is read is a network of integers, with these put as data. So it is well
formed and has distinct names, and in it both ends are chosen.
-/

namespace PatternCovering

/-- An arc with its positions as plain data. -/
def Arc.asData {α : Type} (arc : Arc Int α) : Arc Datum α :=
  { arc with
    index := .int arc.index
    source := .int arc.source
    target := .int arc.target
    item := arc.item.map .int }

namespace Network

/-- A network with its positions as plain data. -/
def asData {α : Type} (network : Network Int α) : Network Datum α :=
  { network with
    arcs := network.arcs.map Arc.asData
    source := network.source.map .int
    sink := network.sink.map .int }

section Operations

variable {α : Type} (network : Network Int α)

/-- A position is that of a node or refused, as an integer and as data. -/
theorem checkNode_asData (role : String) (node : Int) :
    network.asData.checkNode role (.int node) = network.checkNode role node := by
  simp only [checkNode, Position.lt, Position.le, Position.ofInt, Position.ofNat, Position.report,
    Datum.lt_int, Datum.le_int, numNodes, asData, id]
  rfl

/-- An item is accepted or refused, as an integer and as data. -/
theorem checkItem_asData (item : Option Int) :
    checkItem (item.map Datum.int) = checkItem item := by
  cases item with
  | none => rfl
  | some item =>
    simp only [checkItem, Option.map_some, Position.lt, Position.ofInt, Position.report,
      Datum.lt_int, id]

/-- The ends of an arc are accepted or refused, as integers and as data. -/
theorem checkEnds_asData (source target : Int) :
    network.asData.checkEnds (.int source) (.int target) = network.checkEnds source target := by
  simp only [checkEnds, checkNode_asData]

/-- An arc is accepted or refused, with its positions as integers and as data. -/
theorem checkArc_asData (source target : Int) (consumption : List α) (item : Option Int) :
    network.asData.checkArc (.int source) (.int target) consumption (item.map .int) =
      network.checkArc source target consumption item := by
  simp only [checkArc, checkEnds_asData, checkItem_asData]
  rfl

/-- A node is added or refused, with the positions of the network as integers and as data. -/
theorem addNode_asData (name : Datum) : network.asData.addNode name =
    (network.addNode name).map fun (changed, place) => (changed.asData, place) := by
  have hname : network.asData.nextName name = network.nextName name := by cases name <;> rfl
  have hnode : ∀ name, network.asData.nodeNamed name = network.nodeNamed name := fun _ => rfl
  simp only [addNode, hname, hnode]
  rcases network.nodeNamed (network.nextName name) with fault | - | place <;> rfl

/-- An arc is added or refused, with the positions of the network as integers and as data. -/
theorem addArc_asData [Quantity α] (source target : Int) (cost : α) (consumption : Option (List α))
    (item : Option Int) (attributes : Table Datum) :
    network.asData.addArc (.int source) (.int target) cost consumption (item.map .int) attributes =
      ((network.addArc source target cost consumption item attributes).1.asData,
        (network.addArc source target cost consumption item attributes).2) := by
  have hplace : Position.place network.outgoing.size (Datum.int source) =
    Position.place network.outgoing.size source := rfl
  have hresources : network.asData.numResources = network.numResources := rfl
  have hlisted : network.asData.outgoing = network.outgoing := rfl
  have hsize : network.asData.arcs.size = network.arcs.size := by simp [asData]
  simp only [addArc, hresources, checkArc_asData, hlisted, hplace, hsize]
  split
  · rfl
  · split
    · simp [asData, Arc.asData, Array.map_push, Position.ofNat, Position.ofInt]
    · simp [asData, Arc.asData, Array.map_push, Position.ofNat, Position.ofInt]

/-- An end is chosen or refused, with the positions of the network as integers and as data. -/
theorem setSource_asData (node : Int) :
    network.asData.setSource (.int node) = (network.setSource node).map asData := by
  simp only [setSource, checkNode_asData]
  cases network.checkNode "Source" node <;> rfl

/-- An end is chosen or refused, with the positions of the network as integers and as data. -/
theorem setSink_asData (node : Int) :
    network.asData.setSink (.int node) = (network.setSink node).map asData := by
  simp only [setSink, checkNode_asData]
  cases network.checkNode "Sink" node <;> rfl

end Operations

/-- Whether a network is one without nodes after some calls, with its positions put as data. -/
def IsCalled (windows : List (Window Datum)) (network : Network Datum Datum) : Prop :=
  ∃ calls : List (Call Datum), network = (({ windows } : Network Int Datum).applyAll calls).asData

section Reading

variable {windows : List (Window Datum)}

/-- A further call is made after the others. -/
theorem isCalled_apply (windows : List (Window Datum)) (calls : List (Call Datum))
    (call : Call Datum) :
    IsCalled windows (call.apply (({ windows } : Network Int Datum).applyAll calls)).1.asData :=
  ⟨calls ++ [call], by rw [applyAll, applyAll, List.foldl_concat]⟩

/-- The network with nodes that are named by their places, and nothing else. -/
def numbered (windows : List (Window Datum)) (numNodes : Nat) : Network Int Datum :=
  { windows
    names := (Array.range numNodes).map fun (place : Nat) => .text (toString place)
    outgoing := Array.replicate numNodes [] }

/-- Different places are written with different digits. -/
theorem eq_of_toString_eq {place other : Nat} (h : toString place = toString other) :
    place = other := by
  have hdigits : Nat.toDigits 10 place = Nat.toDigits 10 other := by
    simpa using congrArg String.toList h
  rw [← Nat.ofDigitChars_ten_toDigits (n := place), hdigits, Nat.ofDigitChars_ten_toDigits]

/-- The place after the last one is not yet the name of a node. -/
theorem node?_numbered (windows : List (Window Datum)) (numNodes : Nat) :
    (numbered windows numNodes).node? (.text (toString numNodes)) = none := by
  rw [node?, Array.findIdx?_eq_none_iff]
  intro name hname
  obtain ⟨place, hplace, rfl⟩ := Array.mem_map.mp hname
  rw [Bool.eq_false_iff]
  intro hsame
  obtain rfl : place = numNodes := eq_of_toString_eq (Datum.text.inj (Datum.same_text.mp hsame))
  exact Nat.lt_irrefl _ (Array.mem_range.mp hplace)

/-- Nodes without a name are named by their places, none of which is taken. -/
theorem applyAll_replicate (windows : List (Window Datum)) (numNodes : Nat) :
    ({ windows } : Network Int Datum).applyAll (List.replicate numNodes (.addNode none)) =
      numbered windows numNodes := by
  induction numNodes with
  | zero => simp [applyAll, numbered]
  | succ numNodes ih =>
    have hlast : ({ windows } : Network Int Datum).applyAll
        (List.replicate (numNodes + 1) (.addNode none)) =
          ((Call.addNode none).apply (numbered windows numNodes)).1 := by
      rw [← ih, List.replicate_succ', applyAll, applyAll, List.foldl_concat]
    have hsize : (numbered windows numNodes).numNodes = numNodes := by simp [numbered, Network.numNodes]
    obtain ⟨text, htext, hadded⟩ := (numbered windows numNodes).addNode_givenName none
    obtain rfl : toString (numbered windows numNodes).numNodes = text := Datum.text.inj htext
    rw [hsize, node?_numbered] at hadded
    rw [hlast]
    simp only [Call.apply, hadded, Option.isSome_none, Bool.false_eq_true, if_false, Except.map, orLeave]
    simp [numbered, Array.range_succ, Array.replicate_succ]

/-- Without arcs and ends there are no positions. -/
theorem asData_empty (windows : List (Window Datum)) :
    ({ windows } : Network Int Datum).asData = { windows } := by
  simp [asData]

/-- A number of nodes is read by as many calls. -/
theorem isCalled_ofSize (numNodes : Nat) : IsCalled windows (ofSize windows numNodes) := by
  refine ⟨List.replicate numNodes (.addNode none), ?_⟩
  rw [applyAll_replicate]
  simp [asData, numbered, ofSize]

/-- A reference to a node stands for an integer. -/
theorem exists_of_resolve {network : Network Datum Datum} {given position : Datum}
    (h : network.resolve given = .ok position) : ∃ node : Int, position = .int node := by
  rw [resolve.eq_def] at h
  split at h
  · split at h
    · next place hplace => exact ⟨place, (Except.ok.inj h).symm⟩
    · cases h
  · obtain ⟨node, -, h⟩ := bind_eq_ok.mp h
    exact ⟨node, (Except.ok.inj h).symm⟩

/-- Named nodes are read by a call for each of them. -/
theorem IsCalled.addNamedNodes {network extended : Network Datum Datum} (names : List Datum)
    (h : IsCalled windows network) (hread : network.addNamedNodes names = .ok extended) :
    IsCalled windows extended := by
  induction names generalizing network with
  | nil => exact Except.ok.inj hread ▸ h
  | cons name rest ih =>
    obtain ⟨⟨changed, place⟩, hadded, hread⟩ := bind_eq_ok.mp hread
    obtain ⟨calls, rfl⟩ := h
    rw [addNode_asData, map_eq_ok] at hadded
    obtain ⟨⟨known, same⟩, hknown, heq⟩ := hadded
    obtain ⟨rfl, rfl⟩ := Prod.mk.inj heq
    refine ih ?_ hread
    have hcalled := isCalled_apply windows calls (.addNode (some name.plain))
    simpa only [Call.apply, givenName, hknown, Except.map, orLeave] using hcalled

/-- Nodes are read by a call for each of them. -/
theorem isCalled_readNodes {given : Datum} {network : Network Datum Datum}
    (h : readNodes windows given = .ok network) : IsCalled windows network := by
  rw [readNodes.eq_def] at h
  split at h
  · obtain ⟨numNodes, -, h⟩ := bind_eq_ok.mp h
    exact Except.ok.inj h ▸ isCalled_ofSize _
  · obtain ⟨names, -, h⟩ := bind_eq_ok.mp h
    exact IsCalled.addNamedNodes names ⟨[], (asData_empty windows).symm⟩ h

/-- Whether the item of an arc in plain data is absent or an integer. -/
def HasIntegerItem (given : Datum) : Prop :=
  ∀ item ∈ given.presentField? "item", ∃ n : Int, item = .int n

/-- An arc whose item is absent or an integer is read by a call. -/
theorem IsCalled.readArc {network extended : Network Datum Datum} {given : Datum}
    (h : IsCalled windows network) (hitem : HasIntegerItem given)
    (hread : network.readArc given = .ok extended) : IsCalled windows extended := by
  obtain ⟨first, -, hread⟩ := bind_eq_ok.mp hread
  obtain ⟨_, hsource, hread⟩ := bind_eq_ok.mp hread
  obtain ⟨second, -, hread⟩ := bind_eq_ok.mp hread
  obtain ⟨_, htarget, hread⟩ := bind_eq_ok.mp hread
  obtain ⟨cost, -, hread⟩ := bind_eq_ok.mp hread
  obtain ⟨consumption, -, hread⟩ := bind_eq_ok.mp hread
  obtain ⟨source, rfl⟩ := exists_of_resolve hsource
  obtain ⟨target, rfl⟩ := exists_of_resolve htarget
  obtain ⟨item, hsame⟩ : ∃ item : Option Int, given.presentField? "item" = item.map Datum.int := by
    rcases hpresent : given.presentField? "item" with - | known
    · exact ⟨none, rfl⟩
    · obtain ⟨n, rfl⟩ := hitem known hpresent
      exact ⟨some n, rfl⟩
  obtain ⟨calls, rfl⟩ := h
  simp only [hsame, addArc_asData] at hread
  obtain ⟨place, -, hread⟩ := bind_eq_ok.mp hread
  obtain rfl := Except.ok.inj hread
  exact isCalled_apply windows calls (.addArc source target (.float cost) consumption item [])

/-- Arcs whose items are absent or integers are read by a call for each of them. -/
theorem IsCalled.readArcs {network extended : Network Datum Datum} (arcs : List Datum)
    (h : IsCalled windows network) (hitems : ∀ given ∈ arcs, HasIntegerItem given)
    (hread : arcs.foldlM Network.readArc network = .ok extended) : IsCalled windows extended := by
  induction arcs generalizing network with
  | nil => exact Except.ok.inj hread ▸ h
  | cons given rest ih =>
    rw [List.foldlM_cons] at hread
    obtain ⟨changed, hchanged, hread⟩ := bind_eq_ok.mp hread
    obtain ⟨hgiven, hrest⟩ := List.forall_mem_cons.mp hitems
    exact ih (h.readArc hgiven hchanged) hrest hread

/-- Both ends are chosen by a call each. -/
theorem IsCalled.setEnds {network opened changed : Network Datum Datum} {source sink : Int}
    (h : IsCalled windows network) (hsource : network.setSource (.int source) = .ok opened)
    (hsink : opened.setSink (.int sink) = .ok changed) :
    ∃ calls : List (Call Datum),
      changed = (({ windows } : Network Int Datum).applyAll calls).asData ∧
      (({ windows } : Network Int Datum).applyAll calls).source = some source ∧
      (({ windows } : Network Int Datum).applyAll calls).sink = some sink := by
  obtain ⟨calls, rfl⟩ := h
  rw [setSource_asData, map_eq_ok] at hsource
  obtain ⟨first, hfirst, rfl⟩ := hsource
  rw [setSink_asData, map_eq_ok] at hsink
  obtain ⟨second, hsecond, rfl⟩ := hsink
  have hcalls : ({ windows } : Network Int Datum).applyAll (calls ++ [.setSource source, .setSink sink]) =
      second := by
    rw [applyAll, List.foldl_append]
    change ((Call.setSink sink).apply ((Call.setSource source).apply
      (({ windows } : Network Int Datum).applyAll calls)).1).1 = second
    simp only [Call.apply, hfirst, Except.map, orLeave, hsecond]
  obtain ⟨_, -, hfirst⟩ := bind_eq_ok.mp hfirst
  obtain ⟨_, -, hsecond⟩ := bind_eq_ok.mp hsecond
  obtain rfl := Except.ok.inj hfirst
  obtain rfl := Except.ok.inj hsecond
  exact ⟨_, by rw [hcalls], by rw [hcalls], by rw [hcalls]⟩

/-- Whether the items of the arcs in plain data of a network are absent or integers. -/
def HasIntegerItems (given : Datum) : Prop :=
  ∀ arcs, ((given.field? "arcs").getD (.list [])).elements = .ok arcs →
    ∀ arc ∈ arcs, HasIntegerItem arc

/-- A network that is read from data whose items are integers or absent is made by calls, the last
ones of which choose the ends. -/
theorem exists_calls_of_read {given : Datum} {network : Network Datum Datum}
    (h : Network.read given = .ok network) (hitems : HasIntegerItems given) :
    ∃ (windows : List (Window Datum)) (calls : List (Call Datum)) (source sink : Int),
      network = (({ windows } : Network Int Datum).applyAll calls).asData ∧
      (({ windows } : Network Int Datum).applyAll calls).source = some source ∧
      (({ windows } : Network Int Datum).applyAll calls).sink = some sink := by
  obtain ⟨_, -, h⟩ := bind_eq_ok.mp h
  obtain ⟨windows, -, h⟩ := bind_eq_ok.mp h
  obtain ⟨nodes, hnodes, h⟩ := bind_eq_ok.mp h
  obtain ⟨arcs, harcs, h⟩ := bind_eq_ok.mp h
  obtain ⟨joined, hjoined, h⟩ := bind_eq_ok.mp h
  split at h
  · obtain ⟨_, hsource, h⟩ := bind_eq_ok.mp h
    obtain ⟨opened, hopened, h⟩ := bind_eq_ok.mp h
    obtain ⟨_, hsink, h⟩ := bind_eq_ok.mp h
    obtain ⟨source, rfl⟩ := exists_of_resolve hsource
    obtain ⟨sink, rfl⟩ := exists_of_resolve hsink
    have hcalled := (isCalled_readNodes hnodes).readArcs arcs (hitems arcs harcs) hjoined
    obtain ⟨calls, hends⟩ := hcalled.setEnds hopened h
    exact ⟨windows, calls, source, sink, hends⟩
  · cases h

end Reading

/-- Whatever calls are made on a network without nodes, refused ones among them: names are distinct
and the index has exactly their places, the network is well formed, every arc is listed at one node,
and a further call does and answers what the operation does, or is refused and changes nothing. A
network that is read from data whose items are integers or absent is one after such calls, and both of
its ends are chosen. -/
theorem inStep_after_calls :
    (∀ (windows : List (Window Datum)) (calls : List (Call Datum)),
      (Indexed.performAll { windows } calls).InStep ∧
      (Indexed.performAll { windows } calls).toNetwork =
        ({ windows } : Network Int Datum).applyAll calls ∧
      ∀ call, (Indexed.performAll { windows } calls).Agrees call) ∧
    ∀ (given : Datum) (network : Network Datum Datum), Network.read given = .ok network →
      HasIntegerItems given →
      ∃ (windows : List (Window Datum)) (calls : List (Call Datum)),
        network = (Indexed.performAll { windows } calls).toNetwork.asData ∧
        (Indexed.performAll { windows } calls).InStep ∧
        network.source.isSome = true ∧ network.sink.isSome = true := by
  refine ⟨Indexed.after_calls, fun given network hread hitems => ?_⟩
  obtain ⟨windows, calls, source, sink, hnetwork, hsource, hsink⟩ :=
    exists_calls_of_read hread hitems
  obtain ⟨hstep, hsame, -⟩ := Indexed.after_calls windows calls
  refine ⟨windows, calls, by rw [hnetwork, hsame], hstep, ?_, ?_⟩
  · simp [hnetwork, asData, hsource]
  · simp [hnetwork, asData, hsink]

/-- Calls with refused ones among them: the node without a name would be named like the one before,
the second source is refused for its role, the sink for its name, and the arcs for their ends and for
an item. -/
def callsWithRefusals : List (Call Datum) :=
  [.addSource (some "s"), .addNode (some "2"), .addNode none, .addSource (some "r"),
    .addSink (some "2"), .addSink (some "t"), .addArc 0 2 (.float 1.0) none (some 0) [],
    .addArc 0 (-1) (.float 1.0) none none [], .addArc 0 3 (.float 1.0) none none [],
    .addArc 0 1 (.float 1.0) none (some (-1)) [], .addArc 1 2 (.float 0.0) none none []]

/-- The same network as plain data. -/
def dataOfCalls : Datum :=
  .record [
    ("nodes", .list [.text "s", .text "2", .text "t"]),
    ("arcs", .list [
      .record [("source", .text "s"), ("target", .int 2), ("cost", .float 1.0), ("item", .int 0)],
      .record [("source", .text "2"), ("target", .text "t"), ("item", .null)]]),
    ("source", .text "s"),
    ("sink", .text "t")]

/-- The items in this data are an integer and absent. -/
theorem hasIntegerItems_dataOfCalls : HasIntegerItems dataOfCalls := by
  intro arcs harcs arc harc item hitem
  obtain rfl := Except.ok.inj harcs
  rcases List.mem_cons.mp harc with rfl | harc
  · exact ⟨0, (Option.some.inj hitem).symm⟩
  · obtain rfl := List.mem_singleton.mp harc
    cases hitem

/-- Of these calls the accepted ones leave three nodes and two arcs in step with the index, and the
refused ones nothing; the same network is read from data. -/
theorem inStep_after_refusals :
    ∃ network : Network Datum Datum,
      (Indexed.performAll {} callsWithRefusals).InStep ∧
      (Indexed.performAll {} callsWithRefusals).names.map Datum.plain = #["s", "2", "t"] ∧
      (Indexed.performAll {} callsWithRefusals).outgoing = #[[0], [1], []] ∧
      (Indexed.performAll {} callsWithRefusals).source = some 0 ∧
      (Indexed.performAll {} callsWithRefusals).sink = some 2 ∧
      Network.read dataOfCalls = .ok network ∧ HasIntegerItems dataOfCalls ∧
      ∃ (windows : List (Window Datum)) (calls : List (Call Datum)),
        network = (Indexed.performAll { windows } calls).toNetwork.asData ∧
        (Indexed.performAll { windows } calls).InStep ∧
        network.source.isSome = true ∧ network.sink.isSome = true := by
  obtain ⟨network, hread⟩ : ∃ network, (Network.read dataOfCalls).toOption = some network :=
    Option.isSome_iff_exists.mp (by decide +kernel)
  rw [toOption_eq_some] at hread
  exact ⟨network, (inStep_after_calls.1 [] callsWithRefusals).1, by decide +kernel,
    by decide +kernel, by decide +kernel, by decide +kernel, hread, hasIntegerItems_dataOfCalls,
    inStep_after_calls.2 dataOfCalls network hread hasIntegerItems_dataOfCalls⟩

end Network

end PatternCovering
