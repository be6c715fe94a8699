import PatternCovering.CuttingStock
import PatternCovering.Proofs.Knapsack.Table
import PatternCovering.Proofs.PathSearch.Dominance
import PatternCovering.Proofs.PathSearch.Termination

/-!
# The stages of a cutting pattern

The network of an instance is a chain of stages with a loop at each one. Its routes are the patterns
that fit into a roll: a loop is gone through as often as its item is cut, and the used width is the
width of the pattern. A walk inside the window goes through at most as many loops as the roll is
wide, so that a search of the network ends.
-/

namespace PatternCovering

namespace CuttingStock

/-- The loop that cuts the item of a stage once. -/
def loopArc (stage width : Nat) : Arc Int Rat where
  index := (2 * stage : Nat)
  source := stage
  target := stage
  cost := 0
  consumption := [((width : Int) : Rat)]
  item := some (stage : Int)

/-- The way from a stage to the next one. -/
def onwardArc (stage : Nat) : Arc Int Rat where
  index := (2 * stage + 1 : Nat)
  source := stage
  target := (stage + 1 : Nat)
  cost := 0
  consumption := [((0 : Int) : Rat)]

/-- The arcs of the stages from the given one on. -/
def arcsOf : (stage : Nat) → (widths : List Nat) → List (Arc Int Rat)
  | _, [] => []
  | stage, width :: widths => loopArc stage width :: onwardArc stage :: arcsOf (stage + 1) widths

/-- The network of an instance in exact arithmetic. -/
def stageNetwork (stock : CuttingStock) : Network Int Rat where
  windows := [⟨some ((0 : Int) : Rat), some ((stock.capacity : Int) : Rat), .text "width"⟩]
  names := ((List.range stock.numItems).map (fun stage => Datum.text s!"stage_{stage}") ++
    [Datum.text "end"]).toArray
  arcs := (arcsOf 0 stock.widths).toArray
  outgoing := ((List.range stock.numItems).map (fun stage => [2 * stage, 2 * stage + 1]) ++
    [[]]).toArray
  source := some (0 : Nat)
  sink := some (stock.numItems : Nat)

/-- The arcs of an instance are those of its stages. -/
theorem flatMap_stageArcs (stage : Nat) (widths : List Nat) :
    ((List.range' stage widths.length).zip widths).flatMap
      (fun (stage, width) => (stageArcs stage width : List (Arc Int Rat))) = arcsOf stage widths := by
  induction widths generalizing stage with
  | nil => rfl
  | cons width widths ih =>
    rw [List.length_cons, List.range'_succ, List.zip_cons_cons, List.flatMap_cons, ih]
    rfl

/-- An instance with an item has a network. -/
theorem network_eq (stock : CuttingStock) (h : 0 < stock.numItems) :
    (stock.network : Except Fault (Network Int Rat)) = .ok stock.stageNetwork := by
  have hwindow : Window.make (some ((0 : Int) : Rat)) (some ((stock.capacity : Int) : Rat))
      (.text "width") = .ok ⟨some ((0 : Int) : Rat), some ((stock.capacity : Int) : Rat),
        .text "width"⟩ := by
    simp [Window.make, Window.checkBound, Window.isNaN, Quantity.measure?, bind, Except.bind, pure,
      Except.pure]
  have hstages : (List.range stock.numItems).isEmpty = false := by
    rw [List.isEmpty_eq_false_iff]
    intro hempty
    rw [List.range_eq_nil] at hempty
    omega
  have hlength : stock.numItems = stock.widths.length := by simp [numItems, widths]
  have harcs := flatMap_stageArcs 0 stock.widths
  rw [← hlength, ← List.range_eq_range'] at harcs
  simp only [network, Quantity.ofInt_rat, hwindow, bind, Except.bind, hstages, Bool.false_eq_true,
    if_false, pure, Except.pure, harcs]
  rfl

/-- The arcs of a stage stand at two successive positions. -/
theorem getElem?_arcsOf (stage : Nat) (widths : List Nat) (place : Nat) :
    (arcsOf stage widths)[2 * place]? = widths[place]?.map (loopArc (stage + place)) ∧
      (arcsOf stage widths)[2 * place + 1]? =
        widths[place]?.map fun _ => onwardArc (stage + place) := by
  induction widths generalizing stage place with
  | nil => simp [arcsOf]
  | cons width widths ih =>
    cases place with
    | zero => simp [arcsOf]
    | succ place =>
      obtain ⟨hloop, honward⟩ := ih (stage + 1) place
      have heq : stage + 1 + place = stage + (place + 1) := by omega
      rw [heq] at hloop honward
      simp only [arcsOf, Nat.mul_succ, List.getElem?_cons_succ]
      exact ⟨hloop, honward⟩

/-- The arcs of a stage are found at their positions. -/
theorem getElem?_arcs {stock : CuttingStock} {stage width : Nat}
    (h : stock.widths[stage]? = some width) :
    stock.stageNetwork.arcs[2 * stage]? = some (loopArc stage width) ∧
      stock.stageNetwork.arcs[2 * stage + 1]? = some (onwardArc stage) := by
  have hplaces := getElem?_arcsOf 0 stock.widths stage
  rw [Nat.zero_add, h, Option.map_some, Option.map_some] at hplaces
  change (arcsOf 0 stock.widths).toArray[2 * stage]? = _ ∧
    (arcsOf 0 stock.widths).toArray[2 * stage + 1]? = _
  rw [List.getElem?_toArray, List.getElem?_toArray]
  exact hplaces

/-- An arc at a position is the loop or the way on of its stage. -/
theorem of_getElem?_arcs {stock : CuttingStock} {i : Nat} {arc : Arc Int Rat}
    (h : stock.stageNetwork.arcs[i]? = some arc) :
    ∃ stage width, stock.widths[stage]? = some width ∧
      ((i = 2 * stage ∧ arc = loopArc stage width) ∨
        (i = 2 * stage + 1 ∧ arc = onwardArc stage)) := by
  change (arcsOf 0 stock.widths).toArray[i]? = some arc at h
  rw [List.getElem?_toArray] at h
  obtain ⟨hloop, honward⟩ := getElem?_arcsOf 0 stock.widths (i / 2)
  rw [Nat.zero_add] at hloop honward
  rcases Nat.mod_two_eq_zero_or_one i with heven | hodd
  · have hplace : i = 2 * (i / 2) := by omega
    rw [hplace, hloop] at h
    obtain ⟨width, hwidth, harc⟩ := Option.map_eq_some_iff.mp h
    exact ⟨i / 2, width, hwidth, Or.inl ⟨hplace, harc.symm⟩⟩
  · have hplace : i = 2 * (i / 2) + 1 := by omega
    rw [hplace, honward] at h
    obtain ⟨width, hwidth, harc⟩ := Option.map_eq_some_iff.mp h
    exact ⟨i / 2, width, hwidth, Or.inr ⟨hplace, harc.symm⟩⟩

/-- The arcs of the network are the loops and the ways on of the stages. -/
theorem mem_arcs_iff {stock : CuttingStock} {arc : Arc Int Rat} :
    arc ∈ stock.stageNetwork.arcs ↔ ∃ stage width, stock.widths[stage]? = some width ∧
      (arc = loopArc stage width ∨ arc = onwardArc stage) := by
  constructor
  · intro h
    obtain ⟨i, hi⟩ := Array.mem_iff_getElem?.mp h
    obtain ⟨stage, width, hwidth, ⟨-, harc⟩ | ⟨-, harc⟩⟩ := of_getElem?_arcs hi
    · exact ⟨stage, width, hwidth, Or.inl harc⟩
    · exact ⟨stage, width, hwidth, Or.inr harc⟩
  · rintro ⟨stage, width, hwidth, harc⟩
    rcases harc with rfl | rfl
    · exact Array.mem_of_getElem? (getElem?_arcs hwidth).1
    · exact Array.mem_of_getElem? (getElem?_arcs hwidth).2

variable {stock : CuttingStock}

/-- There is a node for each stage and one more. -/
theorem numNodes_stageNetwork (stock : CuttingStock) :
    stock.stageNetwork.numNodes = stock.numItems + 1 := by
  simp [stageNetwork, Network.numNodes]

/-- The stages are the positions of the widths. -/
theorem stage_lt {stage width : Nat} (h : stock.widths[stage]? = some width) :
    stage < stock.numItems := by
  have hlt := (List.getElem?_eq_some_iff.mp h).1
  simpa [widths, numItems] using hlt

/-- The arcs listed at a node are the two of its stage. -/
theorem leaving_stageNetwork (stock : CuttingStock) (node : Nat) :
    stock.stageNetwork.leaving node =
      if node < stock.numItems then [2 * node, 2 * node + 1] else [] := by
  simp only [Network.leaving, stageNetwork, List.getElem?_toArray, List.getElem?_append,
    List.length_map, List.length_range]
  split
  · next hlt => simp [hlt]
  · rw [List.getElem?_singleton]
    split <;> rfl

/-- The network of an instance is well formed. -/
theorem wellFormed_stageNetwork (stock : CuttingStock) : stock.stageNetwork.WellFormed := by
  have hnode : ∀ stage : Nat, stage ≤ stock.numItems → stock.stageNetwork.HasNode (stage : Int) := by
    intro stage hstage
    refine ⟨Int.natCast_nonneg _, ?_⟩
    rw [numNodes_stageNetwork]
    exact_mod_cast Nat.lt_succ_of_le hstage
  refine ⟨?_, fun i arc harc => ?_, fun arc harc => ?_, fun arc harc => ?_, fun arc harc => ?_,
    fun arc harc item hitem => ?_, fun node i => ?_, fun node => ?_, fun node hsource => ?_,
    fun node hsink => ?_⟩
  · rw [numNodes_stageNetwork]
    simp [stageNetwork]
  · obtain ⟨stage, width, -, ⟨rfl, rfl⟩ | ⟨rfl, rfl⟩⟩ := of_getElem?_arcs harc
    · rfl
    · rfl
  · obtain ⟨stage, width, hwidth, rfl | rfl⟩ := mem_arcs_iff.mp harc
    · exact hnode stage (Nat.le_of_lt (stage_lt hwidth))
    · exact hnode stage (Nat.le_of_lt (stage_lt hwidth))
  · obtain ⟨stage, width, hwidth, rfl | rfl⟩ := mem_arcs_iff.mp harc
    · exact hnode stage (Nat.le_of_lt (stage_lt hwidth))
    · exact hnode (stage + 1) (stage_lt hwidth)
  · obtain ⟨stage, width, -, rfl | rfl⟩ := mem_arcs_iff.mp harc
    · rfl
    · rfl
  · obtain ⟨stage, width, -, rfl | rfl⟩ := mem_arcs_iff.mp harc
    · rw [← Option.some.inj hitem]
      exact Int.natCast_nonneg stage
    · cases hitem
  · rw [leaving_stageNetwork]
    constructor
    · intro hi
      split at hi
      · next hlt =>
        obtain ⟨width, hwidth⟩ : ∃ width, stock.widths[node]? = some width := by
          have hplace : node < stock.widths.length := by simpa [widths, numItems] using hlt
          exact ⟨_, List.getElem?_eq_getElem hplace⟩
        simp only [List.mem_cons, List.not_mem_nil, or_false] at hi
        rcases hi with rfl | rfl
        · exact ⟨_, (getElem?_arcs hwidth).1, rfl⟩
        · exact ⟨_, (getElem?_arcs hwidth).2, rfl⟩
      · cases hi
    · rintro ⟨arc, harc, hsource⟩
      obtain ⟨stage, width, hwidth, ⟨rfl, rfl⟩ | ⟨rfl, rfl⟩⟩ := of_getElem?_arcs harc
      · have heq : stage = node := Int.ofNat_inj.mp hsource
        rw [if_pos (heq ▸ stage_lt hwidth), heq]
        simp
      · have heq : stage = node := Int.ofNat_inj.mp hsource
        rw [if_pos (heq ▸ stage_lt hwidth), heq]
        simp
  · rw [leaving_stageNetwork]
    split <;> simp
  · rw [← Option.some.inj hsource]
    exact hnode 0 (Nat.zero_le _)
  · rw [← Option.some.inj hsink]
    exact hnode stock.numItems (Nat.le_refl _)

/-- The search for the patterns of one roll in exact arithmetic. -/
def stageSearch (stock : CuttingStock) (settings : PricingSettings Rat) : PathSearch Int Rat where
  network := stock.stageNetwork
  source := 0
  sink := stock.numItems
  numItems := stock.numItems
  settings := settings

/-- An instance with an item has a search. -/
theorem pathSearch_eq (h : 0 < stock.numItems) (settings : PricingSettings Rat) :
    (stock.pathSearch settings : Except Fault (PathSearch Int Rat)) =
      .ok (stock.stageSearch settings) := by
  have hlargest : stock.stageNetwork.maxItem ≤ (stock.numItems : Int) - 1 := by
    refine (PathSearch.maxItem_le (by omega)).mpr fun arc harc item hitem => ?_
    obtain ⟨stage, width, hwidth, rfl | rfl⟩ := mem_arcs_iff.mp harc
    · rw [← Option.some.inj hitem]
      have hlt := stage_lt hwidth
      omega
    · cases hitem
  have hcount : PathSearch.countItems stock.stageNetwork.maxItem (some (stock.numItems : Int)) =
      .ok (stock.numItems : Int) := by
    have hpos : ¬ (stock.numItems : Int) < 0 := by omega
    have hmore : ¬ (stock.numItems : Int) ≤ stock.stageNetwork.maxItem := by omega
    simp [PathSearch.countItems, Position.le, Position.lt, Position.ofInt, hmore, hpos, bind,
      Except.bind, pure, Except.pure]
  have hwell := wellFormed_stageNetwork stock
  have hsource := Network.place_of_hasNode (hwell.hasStart (0 : Nat) rfl)
  have hsink := Network.place_of_hasNode (hwell.hasFinish (stock.numItems : Nat) rfl)
  rw [Int.toNat_natCast] at hsource hsink
  rw [pathSearch, network_eq stock h]
  change PathSearch.make stock.stageNetwork (some (stock.numItems : Int)) settings = _
  have hends : stock.stageNetwork.source = some ((0 : Nat) : Int) ∧
      stock.stageNetwork.sink = some (stock.numItems : Int) := ⟨rfl, rfl⟩
  simp only [PathSearch.make, hends, hcount, hsource, hsink, bind, Except.bind, pure, Except.pure]
  rfl

/-- The search of an instance is well formed. -/
theorem wellFormed_stageSearch (h : 0 < stock.numItems) (settings : PricingSettings Rat) :
    (stock.stageSearch settings).WellFormed := by
  have hmake := pathSearch_eq h settings
  rw [pathSearch, network_eq stock h] at hmake
  exact (PathSearch.wellFormed_of_make (wellFormed_stageNetwork stock) hmake).1

/-- Nothing is given back along the arcs of an instance, and the width starts at zero. -/
theorem dominanceSafe_stageNetwork (stock : CuttingStock) : stock.stageNetwork.DominanceSafe := by
  refine Network.dominanceSafe_of_nonneg (fun arc harc amount hamount => ?_)
    fun window hwindow low hlow => ?_
  · obtain ⟨stage, width, -, rfl | rfl⟩ := mem_arcs_iff.mp harc
    · rw [List.mem_singleton.mp hamount]
      exact_mod_cast Int.natCast_nonneg width
    · rw [List.mem_singleton.mp hamount]
      simp
  · rw [List.mem_singleton.mp hwindow] at hlow
    rw [← Option.some.inj hlow]
    simp

/-- The width that an arc of an instance uses is that of the item that it cuts. -/
theorem amount_eq_dualOf {arc : Arc Int Rat} (harc : arc ∈ stock.stageNetwork.arcs) :
    arc.consumption.getD 0 0 = arc.dualOf (rationals stock.widths) := by
  obtain ⟨stage, width, hwidth, rfl | rfl⟩ := mem_arcs_iff.mp harc
  · simp [loopArc, Arc.dualOf, List.getD_eq_getElem?_getD, hwidth]
  · simp [onwardArc, Arc.dualOf]

/-- The width that a walk uses is that of the items that it cuts. -/
theorem used_eq_sum {walk : List (Arc Int Rat)}
    (harcs : ∀ arc ∈ walk, arc ∈ stock.stageNetwork.arcs) :
    Network.used walk 0 = (walk.map (Arc.dualOf (rationals stock.widths))).sum := by
  rw [Network.used]
  exact congrArg List.sum (List.map_congr_left fun arc harc => amount_eq_dualOf (harcs arc harc))

/-- Walks of an instance cost nothing. -/
theorem sum_cost_eq_zero {walk : List (Arc Int Rat)}
    (harcs : ∀ arc ∈ walk, arc ∈ stock.stageNetwork.arcs) : (walk.map (·.cost)).sum = 0 := by
  refine List.sum_eq_zero fun cost hcost => ?_
  obtain ⟨arc, harc, rfl⟩ := List.mem_map.mp hcost
  obtain ⟨stage, width, -, rfl | rfl⟩ := mem_arcs_iff.mp (harcs arc harc)
  · rfl
  · rfl

/-- A part of a walk does not use more than the walk. -/
theorem used_le_of_isPrefix {part walk : List (Arc Int Rat)} (hinitial : part <+: walk)
    (harcs : ∀ arc ∈ walk, arc ∈ stock.stageNetwork.arcs) :
    0 ≤ Network.used part 0 ∧ Network.used part 0 ≤ Network.used walk 0 := by
  have hamount : ∀ arc ∈ stock.stageNetwork.arcs, 0 ≤ arc.consumption.getD 0 0 :=
    fun arc harc => (dominanceSafe_stageNetwork stock 0 _ rfl _ rfl).1 arc harc
  obtain ⟨rest, rfl⟩ := hinitial
  have hpart : 0 ≤ Network.used part 0 := Network.used_nonneg
    fun arc harc => hamount arc (harcs arc (List.mem_append_left _ harc))
  have hrest : 0 ≤ Network.used rest 0 := Network.used_nonneg
    fun arc harc => hamount arc (harcs arc (List.mem_append_right _ harc))
  refine ⟨hpart, ?_⟩
  rw [Network.used_append]
  linarith

/-- A walk stays inside the window exactly if its width is at most the capacity. -/
theorem staysWithin_iff {walk : List (Arc Int Rat)}
    (harcs : ∀ arc ∈ walk, arc ∈ stock.stageNetwork.arcs) :
    stock.stageNetwork.StaysWithin walk ↔ Network.used walk 0 ≤ stock.capacity := by
  constructor
  · intro h
    by_cases hnil : walk = []
    · rw [hnil, Network.used_nil]
      exact Nat.cast_nonneg _
    · have hhigh := (h walk (List.prefix_refl _) hnil 0 _ rfl).2 _ rfl
      exact_mod_cast hhigh
  · intro h part hinitial _ resource window hwindow
    obtain ⟨hnonneg, hle⟩ := used_le_of_isPrefix hinitial harcs
    cases resource with
    | zero =>
      rw [← Option.some.inj hwindow]
      refine ⟨fun low hlow => ?_, fun high hhigh => ?_⟩
      · rw [← Option.some.inj hlow]
        exact_mod_cast hnonneg
      · rw [← Option.some.inj hhigh]
        exact_mod_cast hle.trans h
    | succ resource => cases hwindow

/-- A walk is no longer than the width that it uses and the stages that it goes through. -/
theorem length_le_used {walk : List (Arc Int Rat)} (node : Nat)
    (h : stock.stageNetwork.IsWalk (0 : Nat) walk node) :
    (walk.length : Rat) ≤ Network.used walk 0 + node ∧ node ≤ stock.numItems := by
  induction walk using List.reverseRecOn generalizing node with
  | nil =>
    have heq : 0 = node := Int.ofNat_inj.mp h
    simp [← heq]
  | append_singleton walk arc ih =>
    obtain ⟨hwalk, harc, htarget⟩ := Network.isWalk_concat.mp h
    obtain ⟨stage, width, hwidth, rfl | rfl⟩ := mem_arcs_iff.mp harc
    · obtain ⟨hlength, hstage⟩ := ih stage hwalk
      have heq : stage = node := Int.ofNat_inj.mp htarget
      have hpos : 1 ≤ width := stock.widths_pos width (List.mem_of_getElem? hwidth)
      have hwide : (1 : Rat) ≤ width := by exact_mod_cast hpos
      have hamount : (loopArc stage width).consumption.getD 0 0 = (width : Rat) := by simp [loopArc]
      rw [Network.used_concat, hamount, List.length_append, List.length_singleton, Nat.cast_add,
        Nat.cast_one, ← heq]
      exact ⟨by linarith, hstage⟩
    · obtain ⟨hlength, -⟩ := ih stage hwalk
      have heq : stage + 1 = node := Int.ofNat_inj.mp htarget
      have hamount : (onwardArc stage).consumption.getD 0 0 = 0 := by simp [onwardArc]
      rw [Network.used_concat, hamount, List.length_append, List.length_singleton, Nat.cast_add,
        Nat.cast_one, ← heq, Nat.cast_add, Nat.cast_one]
      exact ⟨by linarith, stage_lt hwidth⟩

/-- Walks inside the window are bounded in length. -/
theorem length_le_of_staysWithin {walk : List (Arc Int Rat)} {node : Nat}
    (h : stock.stageNetwork.IsWalk (0 : Nat) walk node)
    (hstays : stock.stageNetwork.StaysWithin walk) :
    walk.length ≤ stock.capacity + stock.numItems := by
  obtain ⟨hlength, hnode⟩ := length_le_used node h
  have hused := (staysWithin_iff fun arc harc => h.mem_arcs harc).mp hstays
  have hnode' : (node : Rat) ≤ stock.numItems := by exact_mod_cast hnode
  have hcast : (walk.length : Rat) ≤ ((stock.capacity + stock.numItems : Nat) : Rat) := by
    rw [Nat.cast_add]
    linarith
  exact_mod_cast hcast

/-- The walk that cuts a pattern from the given stage on: the loop of each stage as often as its item
is cut, then the way to the next stage. -/
def cuts : (stage : Nat) → (widths counts : List Nat) → List (Arc Int Rat)
  | stage, width :: widths, count :: counts =>
    List.replicate count (loopArc stage width) ++ onwardArc stage :: cuts (stage + 1) widths counts
  | _, _, _ => []

/-- A loop can be gone through any number of times. -/
theorem isWalk_replicate_loop {stage width : Nat} (hwidth : stock.widths[stage]? = some width)
    (count : Nat) :
    stock.stageNetwork.IsWalk stage (List.replicate count (loopArc stage width)) stage := by
  induction count with
  | zero => rfl
  | succ count ih =>
    exact ⟨mem_arcs_iff.mpr ⟨stage, width, hwidth, Or.inl rfl⟩, rfl, ih⟩

/-- Cutting a pattern is a walk to the end. -/
theorem isWalk_cuts {stage : Nat} {widths counts : List Nat} (hlength : counts.length = widths.length)
    (hwidths : ∀ place width, widths[place]? = some width →
      stock.widths[stage + place]? = some width) :
    stock.stageNetwork.IsWalk stage (cuts stage widths counts) (stage + widths.length : Nat) := by
  induction widths generalizing stage counts with
  | nil => simp [cuts, Network.IsWalk]
  | cons width widths ih =>
    cases counts with
    | nil => simp at hlength
    | cons count counts =>
      have hwidth : stock.widths[stage]? = some width := hwidths 0 width rfl
      have hlater : ∀ place other, widths[place]? = some other →
          stock.widths[stage + 1 + place]? = some other := by
        intro place other hother
        rw [Nat.add_assoc, Nat.add_comm 1 place]
        exact hwidths (place + 1) other hother
      have hrest := ih (Nat.succ.inj hlength) hlater
      rw [cuts, Network.isWalk_append]
      refine ⟨stage, isWalk_replicate_loop hwidth count,
        mem_arcs_iff.mpr ⟨stage, width, hwidth, Or.inr rfl⟩, rfl, ?_⟩
      rw [List.length_cons, Nat.add_comm widths.length 1, ← Nat.add_assoc]
      exact hrest

/-- Cutting a pattern covers each item as often as the pattern says. -/
theorem sum_dualOf_cuts {weights : List Rat} {stage : Nat} {widths counts : List Nat}
    (hlength : counts.length = widths.length) (hweights : weights.length = stage + widths.length) :
    ((cuts stage widths counts).map (Arc.dualOf weights)).sum = weigh (weights.drop stage) counts := by
  induction widths generalizing stage counts with
  | nil =>
    rw [List.drop_eq_nil_of_le (by simpa using Nat.le_of_eq hweights)]
    rfl
  | cons width widths ih =>
    cases counts with
    | nil => simp at hlength
    | cons count counts =>
      rw [List.length_cons] at hweights
      have hlt : stage < weights.length := by omega
      have hloop : (loopArc stage width).dualOf weights = weights[stage] := by
        simp [loopArc, Arc.dualOf, List.getD_eq_getElem?_getD, hlt]
      have honward : (onwardArc stage).dualOf weights = 0 := rfl
      have hlater : weights.length = stage + 1 + widths.length := by omega
      have hrest := ih (Nat.succ.inj hlength) hlater
      rw [cuts, List.map_append, List.map_cons, List.sum_append, List.sum_cons, List.map_replicate,
        List.sum_replicate, hloop, honward, hrest, List.drop_eq_getElem_cons hlt, weigh_cons,
        nsmul_eq_mul]
      ring

end CuttingStock

end PatternCovering
