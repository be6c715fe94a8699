import PatternCovering.Oracle

/-!
# A scripted oracle

An oracle that answers from a script: call after call it takes the next reduced cost and the next
column, and the last ones are repeated. Without columns of its own, it offers ever larger multiples
of the first item. It shows what a run asks of an oracle without pricing anything.
-/

namespace PatternCovering

/-- The answers of a scripted oracle; a missing reduced cost means that nothing improves, and a
column that cannot be had is a fault of the call that asks for it. -/
structure Rehearsal (ι α : Type) where
  numItems : ι
  reducedCosts : List (Option α)
  columns : Option (List (Except Fault (Column α)))
  settings : PricingSettings α

namespace Rehearsal

variable {ι α : Type} [Position ι] [Quantity α]

/-- The number of calls so far and the duals they came with. -/
structure State (α : Type) where
  calls : Nat := 0
  received : List (List α) := []

/-- The entry of a call, the last one being repeated. -/
def entryFor {β : Type} (entries : List β) (call : Nat) : Except Fault β :=
  match entries[min call (entries.length - 1)]? with
  | some entry => .ok entry
  | none => .error .indexOutOfRange

/-- The number of items as a size. -/
def size (rehearsal : Rehearsal ι α) : Except Fault Nat := do
  return (← Position.toInt rehearsal.numItems).toNat

/-- The column of a call. -/
def columnFor (rehearsal : Rehearsal ι α) (call : Nat) : Except Fault (Column α) := do
  match rehearsal.columns with
  | some columns => ← entryFor columns call
  | none =>
    return { counts := (call + 2) :: List.replicate ((← rehearsal.size) - 1) 0
             cost := Quantity.one }

/-- The offer of a call. -/
def offerFor (rehearsal : Rehearsal ι α) (call : Nat) : Except Fault (Offer α) := do
  let answer ← entryFor rehearsal.reducedCosts call
  let column ← rehearsal.columnFor call
  match answer with
  | some reducedCost => return { column, reducedCost }
  | none => return Offer.nothing (← rehearsal.size) rehearsal.settings.unitCost .optimal

/-- The oracle that answers from the script. -/
def oracle (rehearsal : Rehearsal ι α) : Oracle (State α) α where
  numItems := Position.report rehearsal.numItems
  shown := "ScriptedOracle"
  price state duals :=
    match readDuals rehearsal.numItems duals with
    | .error fault => (state, [], .error fault)
    | .ok duals =>
      ({ calls := state.calls + 1, received := state.received ++ [duals] }, [],
        rehearsal.offerFor state.calls)

end Rehearsal

end PatternCovering
