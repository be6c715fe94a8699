import PatternCovering.Proofs.Datum
import PatternCovering.Proofs.Network.WellFormed

/-!
# Calls on a network and the index of its names

A network is built by calls, each of which either does its work or is refused. A network finds a name
by going along its nodes; kept beside it, an index of the names can be asked instead, and then four
lists have to stay in step: the names, their index, the arcs, and the arcs at each node. Here a call
changes these lists one after the other, and what was changed before a refusal stays changed.

Whatever calls are made, the index has every name once with its position, the network is well formed,
and a refused call has changed nothing. Without the index this is the network of the operations, which
give the same answers.
-/

namespace PatternCovering

namespace Network

/-- A call of one of the operations that build a network. The name of a node may be left out, and so
may the consumption and the item of an arc. -/
inductive Call (α : Type) where
  | addNode (name : Option String)
  | addSource (name : Option String)
  | addSink (name : Option String)
  | setSource (node : Int)
  | setSink (node : Int)
  | addArc (source target : Int) (cost : α) (consumption : Option (List α)) (item : Option Int)
    (attributes : Table Datum)

/-- The name given to a node, nothing if it is left out. -/
def givenName : Option String → Datum
  | none => .null
  | some text => .text text

variable {α : Type} {network : Network Int α}

/-- What an operation comes to that changes a network or refuses to: refused, it leaves the network. -/
def orLeave {β : Type} (network : Network Int α) :
    Except Fault (Network Int α × β) → Network Int α × Except Fault β
  | .error fault => (network, .error fault)
  | .ok (changed, answer) => (changed, .ok answer)

/-- An answer is put into another form whether the network has changed or not. -/
theorem orLeave_map {β γ : Type} (network : Network Int α) (form : β → γ)
    (result : Except Fault (Network Int α × β)) :
    orLeave network (result.map fun (changed, answer) => (changed, form answer)) =
      ((orLeave network result).1, (orLeave network result).2.map form) := by
  cases result <;> rfl

/-- The network after a call, and what the call gives: the place of a new node or arc, or the reason
why it is refused. -/
def Call.apply [Quantity α] (network : Network Int α) :
    Call α → Network Int α × Except Fault (Option Nat)
  | .addNode name =>
    orLeave network ((network.addNode (givenName name)).map fun (changed, place) =>
      (changed, some place))
  | .addSource name =>
    orLeave network ((network.addSource (givenName name)).map fun (changed, place) =>
      (changed, some place))
  | .addSink name =>
    orLeave network ((network.addSink (givenName name)).map fun (changed, place) =>
      (changed, some place))
  | .setSource node => orLeave network ((network.setSource node).map fun changed => (changed, none))
  | .setSink node => orLeave network ((network.setSink node).map fun changed => (changed, none))
  | .addArc source target cost consumption item attributes =>
    let (changed, answer) := network.addArc source target cost consumption item attributes
    (changed, answer.map some)

/-- The network after some calls, made one after the other. -/
def applyAll [Quantity α] (network : Network Int α) (calls : List (Call α)) : Network Int α :=
  calls.foldl (fun network call => (call.apply network).1) network

/-- A call on a network that operations have built leaves one that they have built. -/
theorem Built.apply [Quantity α] (h : network.Built) (call : Call α) :
    (call.apply network).1.Built := by
  cases call with
  | addNode name =>
    simp only [Call.apply]
    rcases hadded : network.addNode (givenName name) with fault | ⟨changed, place⟩
    · exact h
    · exact h.addNode hadded
  | addSource name =>
    simp only [Call.apply]
    rcases hadded : network.addSource (givenName name) with fault | ⟨changed, place⟩
    · exact h
    · exact h.addSource hadded
  | addSink name =>
    simp only [Call.apply]
    rcases hadded : network.addSink (givenName name) with fault | ⟨changed, place⟩
    · exact h
    · exact h.addSink hadded
  | setSource node =>
    simp only [Call.apply]
    rcases hset : network.setSource node with fault | changed
    · exact h
    · exact h.setSource hset
  | setSink node =>
    simp only [Call.apply]
    rcases hset : network.setSink node with fault | changed
    · exact h
    · exact h.setSink hset
  | addArc source target cost consumption item attributes => exact h.addArc rfl

/-- Calls on a network that operations have built leave one that they have built. -/
theorem Built.applyAll [Quantity α] (h : network.Built) (calls : List (Call α)) :
    (network.applyAll calls).Built := by
  induction calls generalizing network with
  | nil => exact h
  | cons call rest ih => exact ih (h.apply call)

/-- An arc that is refused on a well-formed network leaves it as it was. -/
theorem WellFormed.addArc_of_error [Quantity α] (h : network.WellFormed) {source target : Int}
    {cost : α} {consumption : Option (List α)} {item : Option Int} {attributes : Table Datum}
    {after : Network Int α} {fault : Fault}
    (hrefused : network.addArc source target cost consumption item attributes =
      (after, .error fault)) : after = network := by
  simp only [Network.addArc] at hrefused
  generalize hamounts : consumption.getD (List.replicate network.numResources Quantity.zero) =
    amounts at hrefused
  cases hcheck : network.checkArc source target amounts item with
  | error cause =>
    simp only [hcheck, Prod.mk.injEq] at hrefused
    exact hrefused.1.symm
  | ok checked =>
    -- an accepted arc is listed at its source, so that nothing is refused any more
    have hplace : Position.place network.outgoing.size source = .ok source.toNat := by
      rw [h.size_outgoing]
      exact place_of_hasNode (of_checkArc hcheck).1
    simp [hcheck, hplace] at hrefused

/-- A refused call on a well-formed network leaves it as it was. -/
theorem WellFormed.apply_of_error [Quantity α] (h : network.WellFormed) {call : Call α}
    {after : Network Int α} {fault : Fault} (hrefused : call.apply network = (after, .error fault)) :
    after = network := by
  have hleave : ∀ changed : Except Fault (Network Int α × Option Nat),
      orLeave network changed = (after, .error fault) → after = network := by
    intro changed hchanged
    cases changed with
    | error cause => exact (Prod.mk.inj hchanged).1.symm
    | ok answer => cases hchanged
  cases call with
  | addNode name => exact hleave _ hrefused
  | addSource name => exact hleave _ hrefused
  | addSink name => exact hleave _ hrefused
  | setSource node => exact hleave _ hrefused
  | setSink node => exact hleave _ hrefused
  | addArc source target cost consumption item attributes =>
    simp only [Call.apply] at hrefused
    rcases hadded : network.addArc source target cost consumption item attributes with
      ⟨changed, cause | place⟩
    · rw [hadded] at hrefused
      obtain rfl : changed = after := (Prod.mk.inj hrefused).1
      exact h.addArc_of_error hadded
    · simp [hadded, Except.map] at hrefused

/-- A network with the places of its nodes under their names. -/
structure Indexed (α : Type) extends Network Int α where
  index : Table Nat := []

namespace Indexed

/-- A network with the places of its nodes under their names, as they stand. -/
def ofNetwork (network : Network Int α) : Indexed α :=
  { network with index := network.names.toList.zipIdx }

/-- Adds a node: its name is looked up in the index, and then the names, the index and the arcs at
each node are changed in this order. -/
def addNode [Quantity α] (indexed : Indexed α) (given : Datum) : Indexed α × Except Fault Nat :=
  let place := indexed.numNodes
  let name := indexed.nextName given
  match Table.get indexed.index name with
  | .error fault => (indexed, .error fault)
  | .ok (some _) => (indexed, .error (.nodeNameTaken name))
  | .ok none =>
    let named := { indexed with names := indexed.names.push name }
    match Table.insert named.index name place with
    | .error fault => (named, .error fault)
    | .ok index =>
      let known := { named with index }
      ({ known with outgoing := known.outgoing.push [] }, .ok place)

/-- Adds a node for a role that no node has yet: first the node, and then it is given the role. -/
def addEnd [Quantity α] (indexed : Indexed α) (given : Datum) (taken : Option Int) (refused : Fault)
    (assign : Network Int α → Int → Network Int α) : Indexed α × Except Fault Nat :=
  match taken with
  | some _ => (indexed, .error refused)
  | none =>
    match indexed.addNode given with
    | (changed, .error fault) => (changed, .error fault)
    | (changed, .ok place) =>
      ({ changed with toNetwork := assign changed.toNetwork (Position.ofNat place) }, .ok place)

/-- A call that leaves the names of a network leaves their index. -/
def onNetwork {β : Type} (indexed : Indexed α) (change : Network Int α → Network Int α × β) :
    Indexed α × β :=
  let (changed, answer) := change indexed.toNetwork
  ({ indexed with toNetwork := changed }, answer)

/-- The network and the index after a call, each list changed in its turn, and what the call gives. -/
def perform [Quantity α] (indexed : Indexed α) : Call α → Indexed α × Except Fault (Option Nat)
  | .addNode name =>
    let (changed, answer) := indexed.addNode (givenName name)
    (changed, answer.map some)
  | .addSource name =>
    let (changed, answer) := indexed.addEnd (givenName name) indexed.source .sourceTaken
      fun changed node => { changed with source := some node }
    (changed, answer.map some)
  | .addSink name =>
    let (changed, answer) := indexed.addEnd (givenName name) indexed.sink .sinkTaken
      fun changed node => { changed with sink := some node }
    (changed, answer.map some)
  | call => indexed.onNetwork call.apply

/-- The network and the index after some calls, made one after the other. -/
def performAll [Quantity α] (indexed : Indexed α) (calls : List (Call α)) : Indexed α :=
  calls.foldl (fun indexed call => (indexed.perform call).1) indexed

end Indexed

/-- Whether the names of the nodes are distinct texts. -/
structure NamesDistinct (network : Network Int α) : Prop where
  texts : ∀ name ∈ network.names, ∃ text, name = .text text
  nodup : network.names.toList.Nodup

namespace NamesDistinct

/-- A name is the same key as another one only if they are equal. -/
theorem same_iff (h : network.NamesDistinct) {name key : Datum} (hname : name ∈ network.names) :
    name.same key = true ↔ name = key := by
  obtain ⟨text, rfl⟩ := h.texts name hname
  exact Datum.same_text

/-- The index of distinct names has exactly the place of each of them. -/
theorem find?_iff (h : network.NamesDistinct) {key : Datum} {place : Nat} :
    Table.find? key (Indexed.ofNetwork network).index = some place ↔
      network.names[place]? = some key := by
  rw [← Array.getElem?_toList]
  exact Table.find?_zipIdx (fun known hknown => h.same_iff (Array.mem_toList_iff.mp hknown)) h.nodup

/-- The index of distinct names finds what is found along the nodes. -/
theorem find?_eq (h : network.NamesDistinct) (key : Datum) :
    Table.find? key (Indexed.ofNetwork network).index = network.node? key := by
  rcases hnode : network.node? key with - | place
  · rw [node?, Array.findIdx?_eq_none_iff] at hnode
    rw [Option.eq_none_iff_forall_ne_some]
    intro place hplace
    have hmem := Array.mem_of_getElem? (h.find?_iff.mp hplace)
    have hsame := hnode key hmem
    rw [(h.same_iff hmem).mpr rfl] at hsame
    cases hsame
  · obtain ⟨hlt, hsame, -⟩ := Array.findIdx?_eq_some_iff_getElem.mp hnode
    rw [h.find?_iff, Array.getElem?_eq_getElem hlt,
      (h.same_iff (Array.getElem_mem hlt)).mp hsame]

/-- No name is given twice in a network without nodes. -/
theorem empty (windows : List (Window α)) : NamesDistinct ({ windows } : Network Int α) :=
  ⟨by simp, List.nodup_nil⟩

/-- A further node under a text that no node has keeps the names distinct. -/
theorem push (h : network.NamesDistinct) {text : String} (hnew : network.node? (.text text) = none) :
    NamesDistinct { network with
      names := network.names.push (.text text)
      outgoing := network.outgoing.push [] } := by
  have hfree : Datum.text text ∉ network.names := by
    intro hmem
    rw [node?, Array.findIdx?_eq_none_iff] at hnew
    have hsame := hnew _ hmem
    rw [(h.same_iff hmem).mpr rfl] at hsame
    cases hsame
  refine ⟨fun name hname => ?_, ?_⟩
  · rcases Array.mem_push.mp hname with hold | rfl
    · exact h.texts name hold
    · exact ⟨text, rfl⟩
  · change (network.names.push (.text text)).toList.Nodup
    rw [Array.toList_push]
    refine List.nodup_append.mpr ⟨h.nodup, by simp, fun name hname other hother => ?_⟩
    rintro rfl
    exact hfree (List.mem_singleton.mp hother ▸ Array.mem_toList_iff.mp hname)

end NamesDistinct

/-- The next name is a text, whether one is given or not. -/
theorem exists_nextName (network : Network Int α) (name : Option String) :
    ∃ text, network.nextName (givenName name) = .text text := by
  cases name with
  | none => exact ⟨_, rfl⟩
  | some text => exact ⟨text, rfl⟩

/-- A node is refused if its name is taken, and else stands under it at the end. -/
theorem addNode_givenName (network : Network Int α) (name : Option String) :
    ∃ text, network.nextName (givenName name) = .text text ∧
      network.addNode (givenName name) =
        if (network.node? (.text text)).isSome then .error (.nodeNameTaken (.text text))
        else .ok ({ network with
          names := network.names.push (.text text)
          outgoing := network.outgoing.push [] }, network.numNodes) := by
  obtain ⟨text, htext⟩ := network.exists_nextName name
  refine ⟨text, htext, ?_⟩
  simp only [Network.addNode, htext, nodeNamed, Datum.requireKey, Datum.isKey, if_true, bind,
    Except.bind, pure, Except.pure]
  cases network.node? (.text text) <;> rfl

/-- The names stay when an end is chosen. -/
theorem names_setSource [Quantity α] (network : Network Int α) (node : Int) :
    ((Call.setSource node).apply network).1.names = network.names := by
  simp only [Call.apply, setSource]
  cases network.checkNode "Source" node <;> rfl

/-- The names stay when an end is chosen. -/
theorem names_setSink [Quantity α] (network : Network Int α) (node : Int) :
    ((Call.setSink node).apply network).1.names = network.names := by
  simp only [Call.apply, setSink]
  cases network.checkNode "Sink" node <;> rfl

/-- The names stay when an arc is added or refused. -/
theorem names_addArc [Quantity α] (network : Network Int α) (source target : Int) (cost : α)
    (consumption : Option (List α)) (item : Option Int) (attributes : Table Datum) :
    ((Call.addArc source target cost consumption item attributes).apply network).1.names =
      network.names := by
  simp only [Call.apply, addArc]
  repeat' split
  all_goals rfl

namespace Indexed

variable [Quantity α]

omit [Quantity α] in
/-- With a further name at the end, the index has its place at the end. -/
theorem set_index (h : network.NamesDistinct) {text : String}
    (hnew : network.node? (.text text) = none) :
    Table.set (.text text) network.numNodes (ofNetwork network).index =
      (network.names.push (.text text)).toList.zipIdx := by
  rw [Array.toList_push]
  exact Table.set_zipIdx ((h.find?_eq _).trans hnew)

/-- A node is added to the network and to the index, or refused and nothing has changed. -/
theorem addNode_ofNetwork (h : network.NamesDistinct) (name : Option String) :
    (ofNetwork network).addNode (givenName name) =
        (ofNetwork (orLeave network (network.addNode (givenName name))).1,
          (orLeave network (network.addNode (givenName name))).2) ∧
      (orLeave network (network.addNode (givenName name))).1.NamesDistinct := by
  obtain ⟨text, htext, hadded⟩ := network.addNode_givenName name
  have hname : (ofNetwork network).nextName (givenName name) = .text text := htext
  have hget : Table.get (ofNetwork network).index (.text text) = .ok (network.node? (.text text)) := by
    rw [← h.find?_eq]
    rfl
  rw [hadded]
  rcases hnode : network.node? (.text text) with - | place
  · have hinsert : Table.insert (ofNetwork network).index (.text text) (ofNetwork network).numNodes =
        .ok ((network.names.push (.text text)).toList.zipIdx) := by
      rw [← set_index h hnode]
      rfl
    refine ⟨?_, h.push hnode⟩
    simp only [Indexed.addNode, hname, hget, hnode, hinsert]
    rfl
  · refine ⟨?_, h⟩
    simp only [Indexed.addNode, hname, hget, hnode]
    rfl

/-- A node for a role is added to the network and to the index, or refused and nothing has changed. -/
theorem addEnd_ofNetwork (h : network.NamesDistinct) (name : Option String) (taken : Option Int)
    (refused : Fault) (assign : Network Int α → Int → Network Int α)
    (hnames : ∀ network node, (assign network node).names = network.names)
    {added : Except Fault (Network Int α × Nat)}
    (hadded : added = match taken with
      | some _ => .error refused
      | none => (network.addNode (givenName name)).map fun (changed, place) =>
        (assign changed (Position.ofNat place), place)) :
    (ofNetwork network).addEnd (givenName name) taken refused assign =
        (ofNetwork (orLeave network added).1, (orLeave network added).2) ∧
      (orLeave network added).1.NamesDistinct := by
  subst hadded
  cases taken with
  | some node => exact ⟨rfl, h⟩
  | none =>
    obtain ⟨hchanged, hdistinct⟩ := addNode_ofNetwork h name
    simp only [addEnd, hchanged]
    rcases hresult : network.addNode (givenName name) with fault | ⟨changed, place⟩
    · exact ⟨rfl, h⟩
    · rw [hresult] at hdistinct
      have hsame := hnames changed (Position.ofNat place)
      refine ⟨?_, fun known hknown => ?_, ?_⟩
      · simp only [orLeave, Except.map, ofNetwork, hsame]
      · exact hdistinct.texts known (hsame ▸ hknown)
      · exact hsame.symm ▸ hdistinct.nodup

omit [Quantity α] in
/-- A change that leaves the names leaves their index. -/
theorem onNetwork_ofNetwork {β : Type} (h : network.NamesDistinct)
    (change : Network Int α → Network Int α × β) (hnames : (change network).1.names = network.names) :
    (ofNetwork network).onNetwork change = (ofNetwork (change network).1, (change network).2) ∧
      (change network).1.NamesDistinct := by
  refine ⟨?_, fun name hname => h.texts name (hnames ▸ hname), hnames.symm ▸ h.nodup⟩
  simp only [onNetwork, ofNetwork, hnames]

/-- A call changes the network and the index in step, and gives the answer of the operation. -/
theorem perform_ofNetwork (h : network.NamesDistinct) (call : Call α) :
    (ofNetwork network).perform call =
        (ofNetwork (call.apply network).1, (call.apply network).2) ∧
      (call.apply network).1.NamesDistinct := by
  cases call with
  | addNode name =>
    obtain ⟨hadded, hdistinct⟩ := addNode_ofNetwork h name
    simp only [perform, Call.apply, orLeave_map, hadded]
    exact ⟨trivial, hdistinct⟩
  | addSource name =>
    have hends : network.addSource (givenName name) = match network.source with
        | some _ => .error .sourceTaken
        | none => (network.addNode (givenName name)).map fun (changed, place) =>
          ({ changed with source := some (Position.ofNat place) }, place) := by
      rw [Network.addSource]
      cases network.source <;> cases network.addNode (givenName name) <;> rfl
    obtain ⟨hadded, hdistinct⟩ := addEnd_ofNetwork h name network.source .sourceTaken
      (fun changed node => { changed with source := some node }) (fun _ _ => rfl) hends
    have htaken : (ofNetwork network).source = network.source := rfl
    simp only [perform, Call.apply, orLeave_map, htaken, hadded]
    exact ⟨trivial, hdistinct⟩
  | addSink name =>
    have hends : network.addSink (givenName name) = match network.sink with
        | some _ => .error .sinkTaken
        | none => (network.addNode (givenName name)).map fun (changed, place) =>
          ({ changed with sink := some (Position.ofNat place) }, place) := by
      rw [Network.addSink]
      cases network.sink <;> cases network.addNode (givenName name) <;> rfl
    obtain ⟨hadded, hdistinct⟩ := addEnd_ofNetwork h name network.sink .sinkTaken
      (fun changed node => { changed with sink := some node }) (fun _ _ => rfl) hends
    have htaken : (ofNetwork network).sink = network.sink := rfl
    simp only [perform, Call.apply, orLeave_map, htaken, hadded]
    exact ⟨trivial, hdistinct⟩
  | setSource node =>
    exact onNetwork_ofNetwork h (Call.apply · (.setSource node)) (names_setSource network node)
  | setSink node =>
    exact onNetwork_ofNetwork h (Call.apply · (.setSink node)) (names_setSink network node)
  | addArc source target cost consumption item attributes =>
    exact onNetwork_ofNetwork h
      (Call.apply · (.addArc source target cost consumption item attributes))
      (names_addArc network source target cost consumption item attributes)

/-- Calls change the network and the index in step. -/
theorem performAll_ofNetwork (h : network.NamesDistinct) (calls : List (Call α)) :
    (ofNetwork network).performAll calls = ofNetwork (network.applyAll calls) ∧
      (network.applyAll calls).NamesDistinct := by
  induction calls generalizing network with
  | nil => exact ⟨rfl, h⟩
  | cons call rest ih =>
    obtain ⟨hcall, hdistinct⟩ := perform_ofNetwork h call
    have hfirst : (ofNetwork network).performAll (call :: rest) =
        ((ofNetwork network).perform call).1.performAll rest := rfl
    rw [hfirst, hcall]
    exact ih hdistinct

/-- What holds of a network with an index of its names at every point: names are distinct and the
index has exactly their places, the network is well formed, and every arc is listed at one node. -/
structure InStep (indexed : Indexed α) : Prop where
  distinct : indexed.toNetwork.NamesDistinct
  find?_iff : ∀ key place, Table.find? key indexed.index = some place ↔
    indexed.names[place]? = some key
  wellFormed : indexed.toNetwork.WellFormed
  listed_once : ∀ place < indexed.arcs.size, ∃! node, place ∈ indexed.leaving node

omit [Quantity α] in
/-- A well-formed network of distinct names is in step with the index of its names. -/
theorem inStep_ofNetwork (hwell : network.WellFormed) (hnames : network.NamesDistinct) :
    (ofNetwork network).InStep where
  distinct := hnames
  find?_iff _ _ := hnames.find?_iff
  wellFormed := hwell
  listed_once place hplace := by
    obtain ⟨arc, harc⟩ : ∃ arc, network.arcs[place]? = some arc :=
      ⟨_, Array.getElem?_eq_getElem hplace⟩
    have hsource := hwell.hasSource arc (Array.mem_of_getElem? harc)
    refine ⟨arc.source.toNat, ?_, fun node hnode => ?_⟩
    · exact (hwell.mem_leaving _ _).mpr ⟨arc, harc, (Int.toNat_of_nonneg hsource.1).symm⟩
    · obtain ⟨same, hsame, hleaves⟩ := (hwell.mem_leaving _ _).mp hnode
      obtain rfl := Option.some.inj (harc.symm.trans hsame)
      rw [hleaves, Int.toNat_natCast]

/-- What a call does to a network in step with an index: it changes and answers as the operation
does, and changes nothing if it is refused. -/
structure Agrees (indexed : Indexed α) (call : Call α) : Prop where
  network_eq : (indexed.perform call).1.toNetwork = (call.apply indexed.toNetwork).1
  answer_eq : (indexed.perform call).2 = (call.apply indexed.toNetwork).2
  refused : ∀ after fault, indexed.perform call = (after, .error fault) → after = indexed

/-- A call on a well-formed network of distinct names agrees with the operation. -/
theorem agrees_ofNetwork (hwell : network.WellFormed) (hnames : network.NamesDistinct)
    (call : Call α) : (ofNetwork network).Agrees call := by
  have hperform := (perform_ofNetwork hnames call).1
  refine ⟨by rw [hperform]; rfl, by rw [hperform]; rfl, fun after fault hrefused => ?_⟩
  rw [hperform, Prod.mk.injEq] at hrefused
  obtain ⟨rfl, hanswer⟩ := hrefused
  have hsame : (call.apply network).1 = network := hwell.apply_of_error (Prod.ext rfl hanswer)
  rw [hsame]

/-- After calls on a network without nodes, the network is in step with its index, it is that of the
operations, and a further call agrees with the operation. -/
theorem after_calls (windows : List (Window α)) (calls : List (Call α)) :
    (performAll { windows } calls).InStep ∧
      (performAll { windows } calls).toNetwork = ({ windows } : Network Int α).applyAll calls ∧
      ∀ call, (performAll { windows } calls).Agrees call := by
  have hwell := ((Built.empty windows).applyAll calls).wellFormed
  obtain ⟨hcalls, hnames⟩ := performAll_ofNetwork (NamesDistinct.empty windows) calls
  have hsame : performAll { windows } calls =
    ofNetwork (({ windows } : Network Int α).applyAll calls) := hcalls
  rw [hsame]
  exact ⟨inStep_ofNetwork hwell hnames, rfl, agrees_ofNetwork hwell hnames⟩

end Indexed

end Network

end PatternCovering
