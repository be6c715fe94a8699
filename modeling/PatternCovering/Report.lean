import PatternCovering.Datum.Conversion

/-!
# Reports

What is written out about a value: plain data, a list of reports, an object of named reports, or the
fault that stands in place of a value. A type with one report of its values is `Reportable`.
-/

namespace PatternCovering

/-- A written account of a value. -/
inductive Report where
  | datum (value : Datum)
  | list (entries : List Report)
  | object (fields : List (String × Report))
  | fault (cause : Fault)

/-- Types whose values have a report. -/
class Reportable (β : Type) where
  report : β → Report

namespace Report

/-- The report of a value. -/
def of {β : Type} [Reportable β] (value : β) : Report := Reportable.report value

/-- The report of nothing. -/
def nothing : Report := datum .null

instance : Reportable Report := ⟨id⟩

instance : Reportable Datum := ⟨datum⟩

instance : Reportable Int := ⟨fun n => datum (.int n)⟩

instance : Reportable Nat := ⟨fun n => datum (.int n)⟩

instance : Reportable Bool := ⟨fun b => datum (.flag b)⟩

instance : Reportable String := ⟨fun s => datum (.text s)⟩

instance : Reportable Unit := ⟨fun _ => nothing⟩

instance {β : Type} [Reportable β] : Reportable (Option β) where
  report
    | none => nothing
    | some value => of value

instance {β : Type} [Reportable β] : Reportable (List β) := ⟨fun values => list (values.map of)⟩

instance {β : Type} [Reportable β] : Reportable (Array β) := ⟨fun values => of values.toList⟩

instance {β γ : Type} [Reportable β] [Reportable γ] : Reportable (β × γ) :=
  ⟨fun (left, right) => list [of left, of right]⟩

instance {β : Type} [Reportable β] : Reportable (Except Fault β) where
  report
    | .ok value => of value
    | .error cause => fault cause

end Report

mutual

/-- Whether data can be written: it holds no integer of too many digits. -/
def Datum.isWritable : Datum → Bool
  | .number n => !n.isTooLong
  | .list elements => Datum.areWritable elements
  | .record fields => Datum.areFieldsWritable fields
  | _ => true

/-- Whether all elements of a list can be written. -/
def Datum.areWritable : List Datum → Bool
  | [] => true
  | element :: rest => element.isWritable && Datum.areWritable rest

/-- Whether all entries of a record can be written. -/
def Datum.areFieldsWritable : List (String × Datum) → Bool
  | [] => true
  | (_, value) :: rest => value.isWritable && Datum.areFieldsWritable rest

end

mutual

/-- Whether a report can be written. -/
def Report.isWritable : Report → Bool
  | .datum value => value.isWritable
  | .list entries => Report.areWritable entries
  | .object fields => Report.areFieldsWritable fields
  | .fault _ => true

/-- Whether all of some reports can be written. -/
def Report.areWritable : List Report → Bool
  | [] => true
  | entry :: rest => entry.isWritable && Report.areWritable rest

/-- Whether all fields of an object can be written. -/
def Report.areFieldsWritable : List (String × Report) → Bool
  | [] => true
  | (_, value) :: rest => value.isWritable && Report.areFieldsWritable rest

end

/-- The report as far as it can be written: one with an integer of too many digits is replaced by
the fault of writing it. -/
def Report.written (report : Report) : Report :=
  if report.isWritable then report else .fault .integerTooLong

instance : Reportable Status := ⟨fun status => .of status.name⟩

instance : Reportable Sense := ⟨fun sense => .of sense.name⟩

end PatternCovering
