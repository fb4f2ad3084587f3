import McManager.Framework.Frame
import McManager.Services.Operations

namespace McManager

open Framework

/-- The statements by which the life of an operation is recorded, its data apart. -/
def Stmt.notes : Stmt → Bool
  | .claimOperation _ _ | .cancelOperation _ _ _ | .insertAudit _ | .insertNotification _ => true
  | _ => false

/-- Statements with `P` record operations whose data is `D` on databases with `I`. -/
structure Records (I : Database → Prop) (P : Stmt → Prop) (D : Option OperationData → Prop) :
    Prop where
  known : ∀ db, I db → ∀ op ∈ db.operations, D op.data
  notes : ∀ s : Stmt, s.notes = true → P s
  insert : ∀ row : Operation, D row.data → P (.insertOperation row)
  update : ∀ opId status checkpoint startedAt finishedAt errorCode message data now, D data →
    P (.updateOperation opId status checkpoint startedAt finishedAt errorCode message data now)

/-- Nothing is asked of the data where any statement on operations will do. -/
theorem Records.any {I : Database → Prop} {P : Stmt → Prop}
    (notes : ∀ s : Stmt, s.notes = true → P s) (insert : ∀ row, P (.insertOperation row))
    (update : ∀ opId status checkpoint startedAt finishedAt errorCode message data now,
      P (.updateOperation opId status checkpoint startedAt finishedAt errorCode message data now)) :
    Records I P fun _ => True where
  known := fun _ _ _ _ => trivial
  notes := notes
  insert := fun row _ => insert row
  update := fun _ _ _ _ _ _ _ _ _ _ => update _ _ _ _ _ _ _ _ _

/-- Statements with `P` report how an operation has ended. -/
structure Reports (P : Stmt → Prop) : Prop where
  audit : ∀ row opType status, row.eventType = .operation opType status → P (.insertAudit row)
  notification : ∀ row, P (.insertNotification row)

/-- Statements with `P` admit an operation whose data is `D`. -/
structure Admits (P : Stmt → Prop) (D : Option OperationData → Prop) : Prop extends Reports P where
  insert : ∀ row : Operation, D row.data → P (.insertOperation row)
  cancel : ∀ opId now errorCode, P (.cancelOperation opId now errorCode)

theorem Records.admits {I : Database → Prop} {P : Stmt → Prop} {D : Option OperationData → Prop}
    (records : Records I P D) : Admits P D where
  audit := fun _ _ _ _ => records.notes _ rfl
  notification := fun _ => records.notes _ rfl
  insert := records.insert
  cancel := fun _ _ _ => records.notes _ rfl

namespace Operations

variable {I : Database → Prop} {P : Stmt → Prop} {D : Option OperationData → Prop}

section Reported

variable (reports : Reports P)
include reports

theorem writeTerminalAudit_within {auditId : String} {op : Operation} :
    (writeTerminalAudit auditId op).Within I P := by
  intro db _
  exact ⟨reports.audit _ _ _ rfl, fun _ => trivial⟩

theorem publishTerminalOperation_within {notificationId : String} {now : Int} {op : Operation} :
    (Notifications.publishTerminalOperation notificationId now op).Within I P := by
  unfold Notifications.publishTerminalOperation
  split
  · exact trivial
  · split
    · exact trivial
    · split
      · exact trivial
      · intro db _
        dsimp only [Body.pure_eq, Body.bind]
        split
        · exact trivial
        · exact ⟨reports.notification _, fun _ => trivial⟩

end Reported

section Admitted

variable (admits : Admits P D)
include admits

theorem cancelRow_within {now : Int} {errorCode : String} {row : Operation} :
    (cancelRow now errorCode row).Within I P := by
  refine ⟨admits.cancel _ _ _, ?_⟩
  intro n db _
  dsimp only [Body.pure_eq, Body.bind]
  split <;> exact trivial

theorem applyConflictPolicy_within {request : OperationInput} {active : List Operation}
    {status : OperationStatus} {now : Int} :
    (applyConflictPolicy request active status now).Within I P := by
  have cancels : ∀ (code : String) (rows : List Operation) (f : List Operation → Block Admission),
      (∀ cancelled, (f cancelled).Within I P) →
      ((Body.each (cancelRow now code) rows).bind f).Within I P := by
    intro code rows f hf
    exact Body.Within.bind (Body.Within.each rows fun _ _ => cancelRow_within admits) hf
  unfold applyConflictPolicy
  dsimp only [Body.bind_eq, Body.pure_eq]
  split
  · exact trivial
  · split
    · exact trivial
    · split
      · exact cancels _ _ _ fun _ => trivial
      · split
        · apply cancels
          intro cancelled
          split
          · exact trivial
          · split <;> exact trivial
        · split <;> exact trivial

theorem createBlock_within {request : OperationInput} {initial : OperationStatus} {allow : Bool}
    {opId : String} {auditIds : Nat → String} {now : Int} (hdata : D request.data) :
    (createBlock request initial allow opId auditIds now).Within I P := by
  have inserts : ∀ admission,
      (insertAdmitted request admission opId auditIds now).Within I P := by
    intro admission
    refine ⟨admits.insert _ hdata, ?_⟩
    intro n
    apply Body.Within.bind (Body.Within.each _ fun _ _ => writeTerminalAudit_within admits.toReports)
    exact fun _ => trivial
  unfold createBlock
  intro db _
  dsimp only [Body.bind_eq, Body.pure_eq, Body.bind, Body.query]
  split
  · exact trivial
  · intro db _ db _
    dsimp only
    split
    · split
      · exact trivial
      · exact Body.Within.bind (applyConflictPolicy_within admits) inserts
    · exact inserts _

end Admitted

section Blocks

variable (records : Records I P D)
include records

theorem transitionBlock_within {svc : OperationService} {opId : String} {status : OperationStatus}
    {m : Milestone} {cached : Option Checkpoint} {now : Int} {auditId notificationId : String}
    {notifiedAt : Int} (hm : m.data = none ∨ D m.data) :
    (transitionBlock svc opId status m cached now auditId notificationId notifiedAt).Within I P := by
  unfold transitionBlock
  intro db hdb
  dsimp only [Body.bind_eq, Body.pure_eq, Body.bind, Body.query, Body.write]
  split
  · exact trivial
  · rename_i current hcurrent
    split
    · exact trivial
    · split
      · exact trivial
      · have data : D (m.data.or current.data) := by
          obtain hm | hm := hm
          · rw [hm, Option.none_or]
            exact records.known db hdb current (List.mem_of_find?_eq_some hcurrent)
          · cases hdata : m.data with
            | none =>
              rw [Option.none_or]
              exact records.known db hdb current (List.mem_of_find?_eq_some hcurrent)
            | some data => rwa [hdata] at hm
        refine ⟨records.update _ _ _ _ _ _ _ _ _ data, ?_⟩
        intro n db _
        dsimp only
        split
        · exact trivial
        · split
          · apply Body.Within.bind (writeTerminalAudit_within records.admits.toReports)
            intro _
            split
            · apply Body.Within.bind (publishTerminalOperation_within records.admits.toReports)
              exact fun _ => trivial
            · exact trivial
          · exact trivial

theorem claimBlock_within {opId : String} {now : Int} : (claimBlock opId now).Within I P := by
  unfold claimBlock
  intro db _
  dsimp only [Body.bind_eq, Body.pure_eq, Body.bind, Body.query, Body.statement]
  split
  · exact trivial
  · intro db _
    dsimp only
    split
    · exact trivial
    · refine ⟨records.notes _ rfl, ?_⟩
      intro n
      dsimp only
      split
      · exact trivial
      · intro db _
        dsimp only
        split <;> exact trivial

end Blocks

theorem issues_publishTerminal (svc : OperationService) : Issues I P (publishTerminal svc) := by
  unfold publishTerminal
  split
  · exact Issues.readCommitted
  · exact trivial

section Programs

variable (records : Records I P D)
include records

theorem issues_transition {svc : OperationService} {opId : String} {status : OperationStatus}
    {m : Milestone} (hm : m.data = none ∨ D m.data) :
    Issues I P (transition svc opId status m) := by
  unfold transition
  apply Issues.bind Issues.draw
  intro now
  apply Issues.bind Issues.draw
  intro cached
  apply Issues.bind Issues.draw
  intro auditId
  apply Issues.bind Issues.draw
  intro notificationId
  apply Issues.bind Issues.draw
  intro notifiedAt
  apply Issues.bind (Issues.transaction (transitionBlock_within records hm))
  intro updated
  dsimp only
  split
  · exact Issues.bind (issues_publishTerminal svc) fun _ => trivial
  · exact trivial

theorem issues_createWithReplay {svc : OperationService} {request : OperationInput}
    {initial : OperationStatus} {allow : Bool} (hdata : D request.data) :
    Issues I P (createWithReplay svc request initial allow) := by
  unfold createWithReplay
  apply Issues.bind Issues.draw
  intro now
  apply Issues.bind Issues.draw
  intro opId
  apply Issues.bind Issues.draw
  intro auditIds
  apply Issues.bind (Issues.transaction (createBlock_within records.admits hdata))
  intro r
  apply Issues.bind (Issues.each _ fun _ _ => issues_publishTerminal svc)
  intro _
  dsimp only
  split
  · exact Issues.bind Issues.readCommitted fun _ => trivial
  · exact trivial

theorem issues_claimQueued {opId : String} : Issues I P (claimQueued opId) := by
  apply Issues.bind Issues.draw
  intro now
  exact Issues.transaction (claimBlock_within records)

end Programs

end Operations

end McManager
