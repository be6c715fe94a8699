import PatternCovering.Network
import PatternCovering.Proofs.Failure
import Mathlib.Data.List.Basic

/-!
# Networks that operations build

A network is built by adding nodes and arcs to an empty one and by choosing its two ends. In every
network built so, arcs carry their position, join existing nodes and consume one amount of each
resource, and every node lists exactly the arcs that leave it, in the order of their positions.
-/

namespace PatternCovering

namespace Network

variable {α : Type}

/-- Whether a position is that of a node. -/
def HasNode (network : Network Int α) (node : Int) : Prop := 0 ≤ node ∧ node < network.numNodes

/-- The arcs listed at a node, none where there is no node. -/
def leaving (network : Network Int α) (node : Nat) : List Nat := network.outgoing[node]?.getD []

/-- What holds of every network that operations build. -/
structure WellFormed (network : Network Int α) : Prop where
  size_outgoing : network.outgoing.size = network.numNodes
  index_eq : ∀ (i : Nat) arc, network.arcs[i]? = some arc → arc.index = (i : Int)
  hasSource : ∀ arc ∈ network.arcs, network.HasNode arc.source
  hasTarget : ∀ arc ∈ network.arcs, network.HasNode arc.target
  length_consumption : ∀ arc ∈ network.arcs, arc.consumption.length = network.numResources
  item_nonneg : ∀ arc ∈ network.arcs, ∀ item ∈ arc.item, 0 ≤ item
  mem_leaving : ∀ node i, i ∈ network.leaving node ↔
    ∃ arc, network.arcs[i]? = some arc ∧ arc.source = (node : Int)
  sorted_leaving : ∀ node, (network.leaving node).Pairwise (· < ·)
  hasStart : ∀ node ∈ network.source, network.HasNode node
  hasFinish : ∀ node ∈ network.sink, network.HasNode node

variable {network extended : Network Int α}

/-- A node that is accepted stands at the end of the names and has no arc yet. -/
theorem addNode_eq {name : Datum} {index : Nat} (h : network.addNode name = .ok (extended, index)) :
    index = network.numNodes ∧ extended = { network with
      names := network.names.push (network.nextName name)
      outgoing := network.outgoing.push [] } := by
  obtain ⟨known, -, h⟩ := bind_eq_ok.mp h
  cases known with
  | some node => simp at h
  | none =>
    simp only [pure, Except.pure, Except.ok.injEq, Prod.mk.injEq] at h
    exact ⟨h.2.symm, h.1.symm⟩

/-- A position is accepted exactly if it is that of a node. -/
theorem checkNode_eq_ok {role : String} {node : Int} :
    network.checkNode role node = .ok () ↔ network.HasNode node := by
  simp only [checkNode, Position.lt, Position.le, Position.ofInt, Position.ofNat, bind,
    Except.bind, HasNode]
  by_cases hneg : node < 0
  · simp [hneg, Int.not_le.mpr hneg]
  · by_cases hlarge : (network.numNodes : Int) ≤ node
    · simp [hneg, hlarge, Int.not_lt.mpr hlarge]
    · simp [hneg, hlarge, Int.not_lt.mp hneg, Int.not_le.mp hlarge, pure, Except.pure]

/-- The place of a node is its position. -/
theorem place_of_hasNode {node : Int} (h : network.HasNode node) :
    Position.place network.numNodes node = .ok node.toNat := by
  have hlt : node.toNat < network.numNodes := by
    have := h.2
    have := h.1
    omega
  exact Position.place_eq_ok h.1 hlt

/-- An arc between nodes is accepted if it has one amount for each resource and no negative item. -/
theorem checkArc_eq_ok {source target : Int} {consumption : List α} {item : Option Int}
    (hsource : network.HasNode source) (htarget : network.HasNode target)
    (hlength : consumption.length = network.numResources) (hitem : ∀ covered ∈ item, 0 ≤ covered) :
    network.checkArc source target consumption item = .ok () := by
  have hends : network.checkEnds source target = .ok () := by
    rw [checkEnds, checkNode_eq_ok.mpr hsource]
    exact checkNode_eq_ok.mpr htarget
  rw [checkArc, hends]
  cases item with
  | none => simp [hlength, checkItem, bind, Except.bind, pure, Except.pure]
  | some covered =>
    have hnonneg : ¬ covered < 0 := Int.not_lt.mpr (hitem covered rfl)
    simp [hlength, hnonneg, checkItem, Position.lt, Position.ofInt, bind, Except.bind, pure,
      Except.pure]

/-- An arc is accepted only between nodes, with one amount for each resource and no negative item. -/
theorem of_checkArc {source target : Int} {consumption : List α} {item : Option Int}
    (h : network.checkArc source target consumption item = .ok ()) :
    network.HasNode source ∧ network.HasNode target ∧
      consumption.length = network.numResources ∧ ∀ covered ∈ item, 0 ≤ covered := by
  obtain ⟨_, hends, h⟩ := bind_eq_ok.mp h
  obtain ⟨_, hsource, htarget⟩ := bind_eq_ok.mp hends
  refine ⟨checkNode_eq_ok.mp hsource, checkNode_eq_ok.mp htarget, ?_⟩
  split at h
  · simp at h
  · next hlength =>
    refine ⟨not_not.mp hlength, fun covered hcovered => ?_⟩
    rw [Option.mem_def.mp hcovered] at h
    by_contra hneg
    simp [checkItem, Position.lt, Position.ofInt, bind, Except.bind, Int.not_le.mp hneg] at h

namespace WellFormed

/-- A network without nodes is well formed. -/
theorem empty (windows : List (Window α)) : WellFormed ({ windows } : Network Int α) := by
  constructor <;> simp [numNodes, leaving]

/-- A further node keeps a network well formed. -/
theorem addNode (h : network.WellFormed) {name : Datum} {index : Nat}
    (added : network.addNode name = .ok (extended, index)) :
    extended.WellFormed ∧ extended.HasNode index ∧ extended.source = network.source ∧
      extended.sink = network.sink := by
  obtain ⟨rfl, rfl⟩ := addNode_eq added
  have hnode : ∀ node, network.HasNode node → HasNode { network with
      names := network.names.push (network.nextName name)
      outgoing := network.outgoing.push [] } node := by
    intro node hnode
    refine ⟨hnode.1, ?_⟩
    have := hnode.2
    simp only [numNodes, Array.size_push] at this ⊢
    omega
  have hleaving : ∀ node, leaving { network with
      names := network.names.push (network.nextName name)
      outgoing := network.outgoing.push [] } node = network.leaving node := by
    intro node
    simp only [leaving, Array.getElem?_push]
    split
    · next heq => simp [heq]
    · rfl
  refine ⟨?_, ⟨Int.natCast_nonneg _, ?_⟩, rfl, rfl⟩
  · refine ⟨?_, h.index_eq, fun arc harc => hnode _ (h.hasSource arc harc),
      fun arc harc => hnode _ (h.hasTarget arc harc), h.length_consumption, h.item_nonneg,
      fun node i => ?_, fun node => ?_, fun node hsource => hnode _ (h.hasStart node hsource),
      fun node hsink => hnode _ (h.hasFinish node hsink)⟩
    · have := h.size_outgoing
      simp only [numNodes, Array.size_push] at this ⊢
      omega
    · rw [hleaving]
      exact h.mem_leaving node i
    · rw [hleaving]
      exact h.sorted_leaving node
  · simp only [numNodes, Array.size_push]
    omega

/-- Another start keeps a network well formed. -/
theorem withSource (h : network.WellFormed) {node : Int} (hnode : network.HasNode node) :
    WellFormed { network with source := some node } :=
  ⟨h.size_outgoing, h.index_eq, h.hasSource, h.hasTarget, h.length_consumption, h.item_nonneg,
    h.mem_leaving, h.sorted_leaving, fun _ hsource => Option.some.inj hsource ▸ hnode, h.hasFinish⟩

/-- Another end keeps a network well formed. -/
theorem withSink (h : network.WellFormed) {node : Int} (hnode : network.HasNode node) :
    WellFormed { network with sink := some node } :=
  ⟨h.size_outgoing, h.index_eq, h.hasSource, h.hasTarget, h.length_consumption, h.item_nonneg,
    h.mem_leaving, h.sorted_leaving, h.hasStart, fun _ hsink => Option.some.inj hsink ▸ hnode⟩

/-- The lists of arcs once an arc that leaves a node has been listed there. -/
theorem leaving_modify (h : network.WellFormed) (arcs : Array (Arc Int α)) {source : Int}
    (hsource : network.HasNode source) (index node : Nat) :
    leaving { network with arcs, outgoing := network.outgoing.modify source.toNat (· ++ [index]) }
      node = network.leaving node ++ if (node : Int) = source then [index] else [] := by
  have hlt : source.toNat < network.outgoing.size := by
    rw [h.size_outgoing]
    have := hsource.1
    have := hsource.2
    omega
  simp only [leaving, Array.getElem?_modify]
  by_cases heq : source.toNat = node
  · have hcast : (node : Int) = source := by
      have := hsource.1
      omega
    subst heq
    rw [if_pos rfl, if_pos hcast, Array.getElem?_eq_getElem hlt]
    rfl
  · have hcast : ¬ (node : Int) = source := by
      intro hcast
      exact heq (by omega)
    rw [if_neg heq, if_neg hcast, List.append_nil]

/-- A further arc between nodes that is listed at its source keeps a network well formed. -/
theorem withArc (h : network.WellFormed) {arc : Arc Int α} (hindex : arc.index = network.arcs.size)
    (hsource : network.HasNode arc.source) (htarget : network.HasNode arc.target)
    (hlength : arc.consumption.length = network.numResources)
    (hitem : ∀ item ∈ arc.item, 0 ≤ item) :
    WellFormed { network with
      arcs := network.arcs.push arc
      outgoing := network.outgoing.modify arc.source.toNat (· ++ [network.arcs.size]) } := by
  have hmem : ∀ other, other ∈ network.arcs.push arc → other ∈ network.arcs ∨ other = arc :=
    fun other hother => Array.mem_push.mp hother
  have hentry : ∀ i other, (network.arcs.push arc)[i]? = some other →
      network.arcs[i]? = some other ∨ (i = network.arcs.size ∧ other = arc) := by
    intro i other hother
    rw [Array.getElem?_push] at hother
    split at hother
    · next heq => exact Or.inr ⟨heq, (Option.some.inj hother).symm⟩
    · exact Or.inl hother
  refine ⟨?_, ?_, ?_, ?_, ?_, ?_, ?_, ?_, h.hasStart, h.hasFinish⟩
  · simpa [numNodes] using h.size_outgoing
  · intro i other hother
    rcases hentry i other hother with hold | ⟨rfl, rfl⟩
    · exact h.index_eq i other hold
    · exact hindex
  · intro other hother
    rcases hmem other hother with hold | rfl
    · exact h.hasSource other hold
    · exact hsource
  · intro other hother
    rcases hmem other hother with hold | rfl
    · exact h.hasTarget other hold
    · exact htarget
  · intro other hother
    rcases hmem other hother with hold | rfl
    · exact h.length_consumption other hold
    · exact hlength
  · intro other hother
    rcases hmem other hother with hold | rfl
    · exact h.item_nonneg other hold
    · exact hitem
  · intro node i
    rw [h.leaving_modify _ hsource, List.mem_append, h.mem_leaving]
    constructor
    · rintro (⟨other, hother, hleaves⟩ | hlast)
      · refine ⟨other, ?_, hleaves⟩
        have hlt := (Array.getElem?_eq_some_iff.mp hother).1
        rw [Array.getElem?_push_lt hlt]
        exact (Array.getElem?_eq_some_iff.mp hother).2 ▸ rfl
      · split at hlast
        · next heq =>
          refine ⟨arc, ?_, heq.symm⟩
          rw [List.mem_singleton.mp hlast, Array.getElem?_push_size]
        · simp at hlast
    · rintro ⟨other, hother, hleaves⟩
      rcases hentry i other hother with hold | ⟨rfl, rfl⟩
      · exact Or.inl ⟨other, hold, hleaves⟩
      · rw [if_pos hleaves.symm]
        exact Or.inr (List.mem_singleton_self _)
  · intro node
    rw [h.leaving_modify _ hsource, List.pairwise_append]
    refine ⟨h.sorted_leaving node, ?_, fun i hi j hj => ?_⟩
    · split <;> simp
    · obtain ⟨other, hother, -⟩ := (h.mem_leaving node i).mp hi
      have hlt := (Array.getElem?_eq_some_iff.mp hother).1
      split at hj
      · rw [List.mem_singleton.mp hj]
        exact hlt
      · simp at hj

/-- A further arc keeps a network well formed, and so does one that is refused. -/
theorem addArc [Quantity α] (h : network.WellFormed) {source target : Int} {cost : α}
    {consumption : Option (List α)} {item : Option Int} {attributes : Table Datum}
    {answer : Except Fault Nat}
    (added : network.addArc source target cost consumption item attributes = (extended, answer)) :
    extended.WellFormed := by
  simp only [Network.addArc] at added
  generalize hamounts : consumption.getD (List.replicate network.numResources Quantity.zero) =
    amounts at added
  cases hcheck : network.checkArc source target amounts item with
  | error fault =>
    simp only [hcheck, Prod.mk.injEq] at added
    exact added.1 ▸ h
  | ok checked =>
    obtain ⟨hsource, htarget, hlength, hitem⟩ := of_checkArc hcheck
    have hplace : Position.place network.outgoing.size source = .ok source.toNat := by
      rw [h.size_outgoing]
      exact place_of_hasNode hsource
    simp only [hcheck, hplace, Prod.mk.injEq] at added
    obtain ⟨rfl, -⟩ := added
    exact h.withArc rfl hsource htarget hlength hitem

end WellFormed

variable [Quantity α]

/-- The networks that operations build from a network without nodes. An arc that is refused leaves
a network as well. -/
inductive Built : Network Int α → Prop
  | empty (windows : List (Window α)) : Built { windows }
  | addNode {network extended : Network Int α} {name : Datum} {index : Nat} (h : Built network)
    (added : network.addNode name = .ok (extended, index)) : Built extended
  | addSource {network extended : Network Int α} {name : Datum} {index : Nat} (h : Built network)
    (added : network.addSource name = .ok (extended, index)) : Built extended
  | addSink {network extended : Network Int α} {name : Datum} {index : Nat} (h : Built network)
    (added : network.addSink name = .ok (extended, index)) : Built extended
  | setSource {network changed : Network Int α} {node : Int} (h : Built network)
    (set : network.setSource node = .ok changed) : Built changed
  | setSink {network changed : Network Int α} {node : Int} (h : Built network)
    (set : network.setSink node = .ok changed) : Built changed
  | addArc {network extended : Network Int α} {source target : Int} {cost : α}
    {consumption : Option (List α)} {item : Option Int} {attributes : Table Datum}
    {answer : Except Fault Nat} (h : Built network)
    (added : network.addArc source target cost consumption item attributes = (extended, answer)) :
    Built extended

/-- Every network that operations build is well formed. -/
theorem Built.wellFormed {network : Network Int α} (h : network.Built) : network.WellFormed := by
  induction h with
  | empty windows => exact WellFormed.empty windows
  | addNode _ added ih => exact (ih.addNode added).1
  | addSource _ added ih =>
    simp only [Network.addSource] at added
    split at added
    · simp at added
    · obtain ⟨⟨middle, index⟩, hadded, hlast⟩ := bind_eq_ok.mp added
      simp only [pure, Except.pure, Except.ok.injEq, Prod.mk.injEq] at hlast
      obtain ⟨hwell, hnode, -, -⟩ := ih.addNode hadded
      exact hlast.1 ▸ hwell.withSource hnode
  | addSink _ added ih =>
    simp only [Network.addSink] at added
    split at added
    · simp at added
    · obtain ⟨⟨middle, index⟩, hadded, hlast⟩ := bind_eq_ok.mp added
      simp only [pure, Except.pure, Except.ok.injEq, Prod.mk.injEq] at hlast
      obtain ⟨hwell, hnode, -, -⟩ := ih.addNode hadded
      exact hlast.1 ▸ hwell.withSink hnode
  | setSource _ set ih =>
    obtain ⟨_, hcheck, hlast⟩ := bind_eq_ok.mp set
    exact Except.ok.inj hlast ▸ ih.withSource (checkNode_eq_ok.mp hcheck)
  | setSink _ set ih =>
    obtain ⟨_, hcheck, hlast⟩ := bind_eq_ok.mp set
    exact Except.ok.inj hlast ▸ ih.withSink (checkNode_eq_ok.mp hcheck)
  | addArc _ added ih => exact ih.addArc added

/-- One more arc that is accepted gives a network that operations build. -/
theorem Built.withArc (h : network.Built) {source target : Int} (cost : α)
    {consumption : List α} {item : Option Int} (hsource : network.HasNode source)
    (htarget : network.HasNode target) (hlength : consumption.length = network.numResources)
    (hitem : ∀ covered ∈ item, 0 ≤ covered) :
    Built { network with
      arcs := network.arcs.push
        ⟨network.arcs.size, source, target, cost, consumption, item, .table []⟩
      outgoing := network.outgoing.modify source.toNat (· ++ [network.arcs.size]) } := by
  have hplace : Position.place network.outgoing.size source = .ok source.toNat := by
    rw [h.wellFormed.size_outgoing]
    exact place_of_hasNode hsource
  rcases hadded : network.addArc source target cost (some consumption) item [] with
    ⟨extended, answer⟩
  have hbuilt := h.addArc hadded
  simp only [Network.addArc, Option.getD_some, checkArc_eq_ok hsource htarget hlength hitem, hplace,
    Prod.mk.injEq] at hadded
  obtain ⟨rfl, -⟩ := hadded
  exact hbuilt

end Network

end PatternCovering
