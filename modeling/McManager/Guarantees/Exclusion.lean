import McManager.Services.OperationInvariants

namespace McManager

open Framework

/-- The operation types that share their world with no other type. -/
def OperationType.sole : OperationType → Bool
  | .restore | .deleteWorld | .configEdit | .createWorld | .crashDetected => true
  | _ => false

namespace Operations

/-- The in-flight operations of a world that compete for it. -/
def contenders (db : Database) (worldId : String) : List Operation :=
  db.operations.filter fun op =>
    op.worldId == some worldId && op.inFlight && op.opType != .sync

/-- The conflict matrix, read over the contenders of one world. -/
structure Exclusive (ops : List Operation) : Prop where
  runtime : (ops.countP fun op => op.opType.runtime) ≤ 1
  backup : ¬((∃ a ∈ ops, a.opType = .backup) ∧ ∃ b ∈ ops, b.opType = .cleanup)
  sole : ∀ a ∈ ops, a.opType.sole = true →
    (∀ b ∈ ops, b.opType = a.opType) ∧ (a.opType ≠ .restore → ops.length ≤ 1)

/-- Two operations of these types may be in flight together. -/
def Together (s t : OperationType) : Prop :=
  ¬(s.runtime = true ∧ t.runtime = true) ∧ ¬(s = .backup ∧ t = .cleanup) ∧
    ¬(s = .cleanup ∧ t = .backup) ∧
    (s.sole = true ∨ t.sole = true → s = .restore ∧ t = .restore)

theorem Together.symm {s t : OperationType} (h : Together s t) : Together t s := by
  obtain ⟨hruntime, hbackup, hcleanup, hsole⟩ := h
  refine ⟨fun h => hruntime h.symm, fun h => hcleanup h.symm, fun h => hbackup h.symm, ?_⟩
  intro h
  exact (hsole h.symm).symm

theorem exclusive_of_together {ops : List Operation}
    (h : (ops.map (·.opType)).Pairwise Together) : Exclusive ops := by
  induction ops with
  | nil => exact ⟨by simp, by simp, by simp⟩
  | cons op ops ih =>
    obtain ⟨hhead, htail⟩ := List.pairwise_cons.mp h
    have hhead : ∀ b ∈ ops, Together op.opType b.opType :=
      fun b hb => hhead _ (List.mem_map_of_mem hb)
    obtain ⟨runtime, backup, sole⟩ := ih htail
    refine ⟨?_, ?_, ?_⟩
    · by_cases hop : op.opType.runtime = true
      · have none : (ops.countP fun op => op.opType.runtime) = 0 := by
          rw [List.countP_eq_zero]
          exact fun b hb hb' => (hhead b hb).1 ⟨hop, hb'⟩
        simp [hop, none]
      · simpa [hop] using runtime
    · rintro ⟨⟨a, ha, hbackup⟩, b, hb, hcleanup⟩
      rcases List.mem_cons.mp ha with rfl | ha' <;> rcases List.mem_cons.mp hb with rfl | hb'
      · simp [hbackup] at hcleanup
      · exact (hhead b hb').2.1 ⟨hbackup, hcleanup⟩
      · exact (hhead a ha').2.2.1 ⟨hcleanup, hbackup⟩
      · exact backup ⟨⟨a, ha', hbackup⟩, b, hb', hcleanup⟩
    · intro a ha hsole
      rcases List.mem_cons.mp ha with rfl | ha
      · refine ⟨?_, ?_⟩
        · intro b hb
          rcases List.mem_cons.mp hb with rfl | hb
          · rfl
          · obtain ⟨h₁, h₂⟩ := (hhead b hb).2.2.2 (.inl hsole)
            rw [h₁, h₂]
        · intro hne
          cases ops with
          | nil => simp
          | cons b ops => exact absurd ((hhead b (by simp)).2.2.2 (.inl hsole)).1 hne
      · obtain ⟨hop, ha'⟩ := (hhead a ha).2.2.2 (.inr hsole)
        refine ⟨?_, fun hne => absurd ha' hne⟩
        intro b hb
        rcases List.mem_cons.mp hb with rfl | hb
        · rw [hop, ha']
        · exact (sole a ha hsole).1 b hb

theorem together_of_exclusive {ops : List Operation} (h : Exclusive ops) :
    (ops.map (·.opType)).Pairwise Together := by
  rw [List.pairwise_map, List.pairwise_iff_forall_sublist]
  intro a b hsub
  have ha : a ∈ ops := hsub.subset (by simp)
  have hb : b ∈ ops := hsub.subset (by simp)
  have hlength : 2 ≤ ops.length := hsub.length_le
  refine ⟨?_, ?_, ?_, ?_⟩
  · rintro ⟨hra, hrb⟩
    have hcount := hsub.countP_le (p := fun op => op.opType.runtime)
    have := h.runtime
    simp [hra, hrb] at hcount
    omega
  · exact fun ⟨hba, hcb⟩ => h.backup ⟨⟨a, ha, hba⟩, b, hb, hcb⟩
  · exact fun ⟨hca, hbb⟩ => h.backup ⟨⟨b, hb, hbb⟩, a, ha, hca⟩
  · have restores : ∀ x ∈ ops, x.opType.sole = true → x.opType = .restore := by
      intro x hx hsole
      by_contra hne
      have := (h.sole x hx hsole).2 hne
      omega
    rintro (hsole | hsole)
    · have hr := restores a ha hsole
      exact ⟨hr, ((h.sole a ha hsole).1 b hb).trans hr⟩
    · have hr := restores b hb hsole
      exact ⟨((h.sole b hb hsole).1 a ha).trans hr, hr⟩

/-- Statements that keep types and worlds and put nothing in flight leave a sublist of the
contenders' types. -/
theorem contenders_updateWhere {p : Operation → Bool} {f : Operation → Operation}
    (worldId : String) (ops : List Operation)
    (kept : ∀ op ∈ ops, p op = true → (f op).opType = op.opType ∧ (f op).worldId = op.worldId ∧
      ((f op).inFlight = true → op.inFlight = true)) :
    (((updateWhere p f ops).filter fun op =>
      op.worldId == some worldId && op.inFlight && op.opType != .sync).map (·.opType)).Sublist
    ((ops.filter fun op =>
      op.worldId == some worldId && op.inFlight && op.opType != .sync).map (·.opType)) := by
  induction ops with
  | nil => exact List.Sublist.refl _
  | cons op ops ih =>
    have ih := ih fun op hop => kept op (List.mem_cons_of_mem _ hop)
    rw [updateWhere, List.map_cons, List.filter_cons, List.filter_cons]
    by_cases hp : p op = true
    · obtain ⟨htype, hworld, hflight⟩ := kept op (List.mem_cons_self ..) hp
      rw [if_pos hp]
      by_cases hnew : ((f op).worldId == some worldId && (f op).inFlight &&
          (f op).opType != .sync) = true
      · have hold : (op.worldId == some worldId && op.inFlight && op.opType != .sync) = true := by
          simp only [Bool.and_eq_true] at hnew ⊢
          rw [hworld, htype] at hnew
          exact ⟨⟨hnew.1.1, hflight hnew.1.2⟩, hnew.2⟩
        rw [if_pos hnew, if_pos hold, List.map_cons, List.map_cons, htype]
        exact ih.cons_cons _
      · rw [if_neg hnew]
        split
        · exact ih.cons _
        · exact ih
    · rw [if_neg hp]
      split
      · exact ih.cons_cons _
      · exact ih

/-- What a request that is let in beside others shares its world with. -/
theorem statusBeside_together {request : OperationInput} {active : List Operation}
    {status s : OperationStatus} (h : statusBeside request active status = .ok s) :
    (request.opType = .cleanup ∧ ∃ c ∈ active, c.opType = .cleanup) ∨
      ∀ a ∈ active, a.opType ≠ .sync → Together a.opType request.opType := by
  have types : ∀ (P : OperationType → Bool), (active.map (·.opType)).all P = true →
      ∀ a ∈ active, P a.opType = true := by
    intro P hP a ha
    exact List.all_eq_true.mp hP _ (List.mem_map_of_mem ha)
  have notTypes : ∀ (P : OperationType → Bool), ¬(active.map (·.opType)).any P = true →
      ∀ a ∈ active, P a.opType = false := by
    intro P hP a ha
    by_contra hne
    exact hP (List.any_eq_true.mpr ⟨_, List.mem_map_of_mem ha, by simpa using hne⟩)
  unfold statusBeside at h
  cases hr : request.opType <;> simp only [hr] at h
  case backup =>
    right
    intro a ha _
    split at h
    · cases h
    · rename_i hall
      have hkind := notTypes _ hall a ha
      cases hk : a.opType <;> simp [hk, OperationType.runtime] at hkind <;>
        simp [Together, OperationType.runtime, OperationType.sole]
  case restore =>
    right
    intro a ha _
    split at h
    · rename_i hall
      have hkind := types _ hall a ha
      simp only [beq_iff_eq] at hkind
      simp [hkind, Together, OperationType.runtime]
    · cases h
  case cleanup =>
    split at h
    · rename_i hsame
      obtain ⟨c, hc, hmatch⟩ := List.any_eq_true.mp hsame
      simp only [Bool.and_eq_true, beq_iff_eq] at hmatch
      exact .inl ⟨rfl, c, hc, hmatch.1.1⟩
    · split at h
      · cases h
      · rename_i hall
        right
        intro a ha _
        have hkind := notTypes _ hall a ha
        cases hk : a.opType <;> simp [hk, OperationType.runtime] at hkind <;>
          simp [Together, OperationType.runtime, OperationType.sole]
  case stop =>
    right
    intro a ha _
    split at h
    · split at h
      · cases h
      · rename_i hall
        have hkind := notTypes _ hall a ha
        cases hk : a.opType <;> simp [hk] at hkind <;>
          simp [Together, OperationType.runtime, OperationType.sole]
    · split at h
      · rename_i hall
        have hkind := types _ hall a ha
        simp only [beq_iff_eq] at hkind
        simp [hkind, Together, OperationType.runtime, OperationType.sole]
      · cases h
  case start =>
    right
    intro a ha _
    split at h
    · rename_i hall
      have hkind := types _ hall a ha
      cases hk : a.opType <;> simp [hk] at hkind <;>
        simp [Together, OperationType.runtime, OperationType.sole]
    · cases h
  case kill =>
    right
    intro a ha _
    split at h
    · rename_i hall
      have hkind := types _ hall a ha
      cases hk : a.opType <;> simp [hk] at hkind <;>
        simp [Together, OperationType.runtime, OperationType.sole]
    · cases h
  all_goals cases h

/-- An operation the request does not cancel may be in flight together with it. -/
theorem Admits.together {request : OperationInput} {active victims : List Operation}
    {status s : OperationStatus} (h : Admits request active status victims s)
    (inv : ∀ a ∈ active, ∀ b ∈ active, a.opType ≠ .sync → b.opType ≠ .sync →
      a.opType = b.opType ∨ Together a.opType b.opType) :
    ∀ a ∈ active, a ∉ victims → a.opType ≠ .sync → Together a.opType request.opType := by
  intro a ha hsurvives hsync
  cases h with
  | alone hnil => simp [hnil] at ha
  | overStops => exact absurd ha hsurvives
  | overDeletes _ hrestore hrest =>
    have hq : queuedDelete a = false := by
      by_contra hq
      exact hsurvives (List.mem_filter.mpr ⟨ha, by simpa using hq⟩)
    simp [hrest a ha hq, hrestore, Together, OperationType.runtime]
  | beside _ _ hs =>
    rcases statusBeside_together hs with ⟨hcleanup, c, hc, hc'⟩ | hall
    · rw [hcleanup]
      rcases inv a ha c hc hsync (by simp [hc']) with hsame | htogether
      · simp [hsame, hc', Together, OperationType.runtime, OperationType.sole]
      · rwa [hc'] at htogether
    · exact hall a ha hsync

private theorem pairwise_types {ops : List Operation}
    (h : (ops.map (·.opType)).Pairwise Together) :
    ∀ a ∈ ops, ∀ b ∈ ops, a.opType = b.opType ∨ Together a.opType b.opType := by
  have pairs : ops.Pairwise fun a b => a.opType = b.opType ∨ Together a.opType b.opType :=
    (List.pairwise_map.mp h).imp .inr
  have flipped : ops.Pairwise (flip fun a b => a.opType = b.opType ∨ Together a.opType b.opType) :=
    (List.pairwise_map.mp h).imp fun h => .inr h.symm
  exact fun a ha b hb =>
    pairs.forall_of_forall_of_flip (fun _ _ => .inl rfl) flipped ha hb

theorem mem_contenders {db : Database} {worldId : String} {op : Operation} :
    op ∈ contenders db worldId ↔ op ∈ inFlightOf db worldId ∧ op.opType ≠ .sync := by
  simp [contenders, mem_inFlightOf, and_assoc]

private theorem together_created {db : Database} {request : OperationInput}
    {initial s : OperationStatus} {allow : Bool} {victims : List Operation} {now : Int}
    {code opId worldId : String} {auditIds : Nat → String}
    (inv : ((contenders db worldId).map (·.opType)).Pairwise Together)
    (admitted : Admitted db request initial allow victims s)
    (checked : request.worldId = some worldId → allow = false) :
    ((contenders (created db victims now code auditIds (newOperation request opId s now))
      worldId).map (·.opType)).Pairwise Together := by
  have sub := contenders_updateWhere
    (p := fun op => (victims.map (·.opId)).contains op.opId && op.inFlight)
    (f := Operation.cancel now code) worldId db.operations fun op _ _ => ⟨rfl, rfl, by simp⟩
  have hsplit : contenders (created db victims now code auditIds (newOperation request opId s now))
      worldId = (contenders { db with
        operations := cancelAll (victims.map (·.opId)) now code db.operations } worldId) ++
      [newOperation request opId s now].filter fun op =>
        op.worldId == some worldId && op.inFlight && op.opType != .sync := by
    simp only [contenders, created, List.filter_append]
  rw [hsplit, List.map_append, List.pairwise_append]
  refine ⟨inv.sublist sub, ?_, ?_⟩
  · rw [List.filter_cons]
    split <;> simp
  · intro k hk t ht
    obtain ⟨a, ha, rfl⟩ := List.mem_map.mp hk
    obtain ⟨n, hn, rfl⟩ := List.mem_map.mp ht
    obtain ⟨hn, hnew⟩ := List.mem_filter.mp hn
    rw [List.mem_singleton.mp hn] at hnew ⊢
    simp only [newOperation, Bool.and_eq_true, beq_iff_eq, bne_iff_ne, ne_eq] at hnew
    obtain ⟨⟨hworld, -⟩, hsync⟩ := hnew
    obtain ⟨ha, hsync'⟩ := mem_contenders.mp ha
    obtain ⟨hmem, hworld', hflight⟩ := mem_inFlightOf.mp ha
    rcases mem_cancelAll.mp hmem with ⟨old, hold, ⟨-, -, rfl⟩ | ⟨hnot, rfl⟩⟩
    · simp at hflight
    have hactive : a ∈ inFlightOf db worldId := mem_inFlightOf.mpr ⟨hold, hworld', hflight⟩
    have hsurvives : a ∉ victims := by
      intro hv
      exact hnot ⟨List.mem_map.mpr ⟨a, hv, rfl⟩, hflight⟩
    cases admitted with
    | unchecked hwhy =>
      rcases hwhy with h | h | h
      · simp [hworld] at h
      · simp [checked hworld] at h
      · exact absurd h hsync
    | checked worldId' _ _ hworld'' _ _ _ admits _ =>
      obtain rfl : worldId' = worldId := by
        rw [hworld] at hworld''
        exact (Option.some.inj hworld'').symm
      refine admits.together ?_ a hactive hsurvives hsync'
      intro x hx y hy hsx hsy
      exact pairwise_types inv x (mem_contenders.mpr ⟨hx, hsx⟩) y (mem_contenders.mpr ⟨hy, hsy⟩)

private theorem together_replaceOperation {db : Database} {op new : Operation} {worldId : String}
    (inv : ((contenders db worldId).map (·.opType)).Pairwise Together)
    (unique : db.UniqueOperations) (hop : op ∈ db.operations) (e : Evolves op new)
    (hflight : op.inFlight = true) :
    ((contenders (replaceOperation db new.opId new) worldId).map (·.opType)).Pairwise Together := by
  refine inv.sublist (contenders_updateWhere worldId db.operations ?_)
  intro x hx hid
  obtain rfl := nodup_key_inj unique hx hop ((beq_iff_eq.mp hid).trans e.opId)
  exact ⟨e.opType, e.worldId, fun _ => hflight⟩

/-- Every effect keeps the contenders of a world compatible, as long as no request for the
world skips the conflict policy. -/
theorem Effect.together {svc : OperationService} {call : OpCall} {db db' : Database}
    {r : Option Operation} {worldId : String} (h : Effect svc call db r db')
    (checked : ∀ request initial allow, call = .create request initial allow →
      request.worldId = some worldId → allow = false)
    (unique : db.UniqueOperations)
    (inv : ((contenders db worldId).map (·.opType)).Pairwise Together) :
    ((contenders db' worldId).map (·.opType)).Pairwise Together := by
  cases h with
  | create opId auditIds now h =>
    obtain ⟨-, -, rfl, -⟩ | ⟨-, -, victims, s, code, admitted, rfl, -, -, -, -, rfl⟩ :=
      createBlock_ok unique h
    · exact inv
    · exact together_created inv admitted (checked _ _ _ rfl)
  | claim now h =>
    obtain ⟨-, rfl⟩ | ⟨op, hop, rfl, hq, -, -, rfl⟩ := claimBlock_ok unique h
    · exact inv
    · exact together_replaceOperation inv unique hop (.claim hq now)
        (by simp [Operation.inFlight, hq, OperationStatus.inFlight])
  | transition cached now auditId notificationId notifiedAt h =>
    obtain ⟨op, hop, rfl, hopen, h⟩ := transitionBlock_ok unique h
    split at h
    · obtain ⟨rfl, audits, notifications, -, rfl⟩ := h
      exact together_replaceOperation inv unique hop (.advance hopen _ _ _ _)
        (Operation.inFlight_iff.mpr hopen)
    · obtain ⟨rfl, rfl⟩ := h
      exact inv

/-- Two operations of a single-flight type that queue for the same thing. -/
def SameQueue (a b : Operation) : Prop :=
  a.opType = b.opType ∧ (b.opType = .backup ∨ b.opType = .restore ∨
    b.opType = .cleanup ∧ cleanupScope a.worldId a.data = cleanupScope b.worldId b.data)

/-- An operation the call creates while another one of its queue is in flight waits. -/
def Served.Waits (s : Served) (worldId : String) : Prop :=
  ∀ op ∈ s.after.operations, op.worldId = some worldId → s.before.hasOperation op.opId = false →
    (∃ other ∈ contenders s.before worldId, SameQueue other op) → op.status = .queued

/-- An operation the call claims has its world to itself. -/
def Served.ClaimsAlone (s : Served) (worldId : String) : Prop :=
  ∀ opId, s.call = .claim opId → ∀ old ∈ s.before.operations, old.opId = opId →
    old.status = .queued → ∀ op ∈ s.after.operations, op.opId = opId → op.status = .running →
    op.worldId = some worldId → ∀ other ∈ s.after.operations, other.worldId = some worldId →
      other.status.active = true → other = op

private theorem Admits.waits {request : OperationInput} {active victims : List Operation}
    {status s : OperationStatus} (h : Admits request active status victims s)
    {worldId : String} (hworld : request.worldId = some worldId) {other op : Operation}
    (hother : other ∈ active) (htype : op.opType = request.opType)
    (hopworld : op.worldId = request.worldId) (hdata : op.data = request.data)
    (same : SameQueue other op) : s = .queued := by
  obtain ⟨hsame, hqueue⟩ := same
  rw [htype] at hsame hqueue
  cases h with
  | alone hnil => simp [hnil] at hother
  | overStops hkill => simp [hkill] at hqueue
  | overDeletes _ hrestore _ hrest =>
    refine hrest ⟨other, hother, ?_⟩
    simp [queuedDelete, hsame, hrestore]
  | beside _ _ hs =>
    have there : other.opType ∈ active.map (·.opType) := List.mem_map_of_mem hother
    unfold statusBeside at hs
    rcases hqueue with hbackup | hrestore | ⟨hcleanup, hscope⟩
    · simp only [hbackup] at hs
      rw [hsame, hbackup] at there
      split at hs
      · cases hs
      · exact (Except.ok.inj hs).symm
    · simp only [hrestore] at hs
      split at hs
      · exact (Except.ok.inj hs).symm
      · cases hs
    · simp only [hcleanup] at hs
      rw [if_pos] at hs
      · exact (Except.ok.inj hs).symm
      · refine List.any_eq_true.mpr ⟨other, hother, ?_⟩
        have hsome : (cleanupScope request.worldId request.data).isSome = true := by
          simp [cleanupScope, hworld]
        rw [hscope, hopworld, hdata, hsome]
        simp [hsame, hcleanup]

private theorem old_of_created {db : Database} {victims : List Operation} {now : Int}
    {code : String} {auditIds : Nat → String} {op x : Operation}
    (hx : x ∈ (created db victims now code auditIds op).operations)
    (hnew : db.hasOperation x.opId = false) : x = op := by
  rcases mem_created.mp hx with rfl | ⟨old, hold, h⟩
  · rfl
  · have hid : x.opId = old.opId := by
      rcases h with ⟨-, -, rfl⟩ | ⟨-, rfl⟩ <;> rfl
    rw [hid, hasOperation_iff.mpr (List.mem_map.mpr ⟨old, hold, rfl⟩)] at hnew
    simp at hnew

private theorem known_replaceOperation {db : Database} {op new x : Operation} {opId : String}
    (hop : op ∈ db.operations) (hid : op.opId = opId)
    (hx : x ∈ (replaceOperation db opId new).operations) (hnew : new.opId = opId) :
    db.hasOperation x.opId = true := by
  rcases (mem_replaceOperation ⟨op, hop, hid⟩).mp hx with rfl | ⟨hx, -⟩
  · exact hasOperation_iff.mpr (List.mem_map.mpr ⟨op, hop, hid.trans hnew.symm⟩)
  · exact hasOperation_iff.mpr (List.mem_map.mpr ⟨x, hx, rfl⟩)

theorem Effect.waits {svc : OperationService} {call : OpCall} {db db' : Database}
    {r : Option Operation} {worldId : String} (h : Effect svc call db r db')
    (checked : ∀ request initial allow, call = .create request initial allow →
      request.worldId = some worldId → allow = false)
    (unique : db.UniqueOperations) {op : Operation} (hop : op ∈ db'.operations)
    (hworld : op.worldId = some worldId) (hnew : db.hasOperation op.opId = false)
    (beside : ∃ other ∈ contenders db worldId, SameQueue other op) : op.status = .queued := by
  have absurdly : db.hasOperation op.opId = true → op.status = .queued := by
    intro hknown
    simp [hknown] at hnew
  cases h with
  | create opId auditIds now h =>
    obtain ⟨-, -, rfl, -⟩ | ⟨-, -, victims, s, code, admitted, rfl, -, -, -, -, rfl⟩ :=
      createBlock_ok unique h
    · exact absurdly (hasOperation_iff.mpr (List.mem_map.mpr ⟨op, hop, rfl⟩))
    · obtain rfl := old_of_created hop hnew
      obtain ⟨other, hother, same⟩ := beside
      cases admitted with
      | unchecked hwhy =>
        rcases hwhy with hnone | hallow | hsync
        · simp [newOperation, hnone] at hworld
        · simp [checked _ _ _ rfl hworld] at hallow
        · have hqueue := same.2
          simp [newOperation, hsync] at hqueue
      | checked worldId' _ _ hworld' _ _ _ admits _ =>
        obtain rfl : worldId' = worldId := Option.some.inj (hworld'.symm.trans hworld)
        exact admits.waits hworld' (mem_contenders.mp hother).1 rfl rfl rfl same
  | claim now h =>
    obtain ⟨-, rfl⟩ | ⟨old, hold, rfl, -, -, -, rfl⟩ := claimBlock_ok unique h
    · exact absurdly (hasOperation_iff.mpr (List.mem_map.mpr ⟨op, hop, rfl⟩))
    · exact absurdly (known_replaceOperation hold rfl hop rfl)
  | transition cached now auditId notificationId notifiedAt h =>
    obtain ⟨old, hold, rfl, -, h⟩ := transitionBlock_ok unique h
    split at h
    · obtain ⟨rfl, audits, notifications, -, rfl⟩ := h
      exact absurdly (known_replaceOperation hold rfl hop rfl)
    · obtain ⟨rfl, rfl⟩ := h
      exact absurdly (hasOperation_iff.mpr (List.mem_map.mpr ⟨op, hop, rfl⟩))

theorem Effect.claimsAlone {svc : OperationService} {opId worldId : String} {db db' : Database}
    {r : Option Operation} (h : Effect svc (.claim opId) db r db') (unique : db.UniqueOperations)
    {old op other : Operation} (hold : old ∈ db.operations) (hid : old.opId = opId)
    (hqueued : old.status = .queued) (hop : op ∈ db'.operations) (hid' : op.opId = opId)
    (hrunning : op.status = .running) (hworld : op.worldId = some worldId)
    (hother : other ∈ db'.operations) (hworld' : other.worldId = some worldId)
    (hactive : other.status.active = true) : other = op := by
  cases h with
  | claim now h =>
    obtain ⟨-, rfl⟩ | ⟨current, hcurrent, rfl, -, alone, -, rfl⟩ := claimBlock_ok unique h
    · obtain rfl := nodup_key_inj unique hop hold (hid'.trans hid.symm)
      simp [hqueued] at hrunning
    · have members : ∀ x, x ∈ (replaceOperation db current.opId (current.claim now)).operations ↔
          x = current.claim now ∨ x ∈ db.operations ∧ x.opId ≠ current.opId :=
        fun x => mem_replaceOperation ⟨current, hcurrent, rfl⟩
      have hnew : op = current.claim now := by
        rcases (members op).mp hop with h | ⟨-, hne⟩
        · exact h
        · exact absurd hid' hne
      rw [hnew] at hworld ⊢
      rcases (members other).mp hother with h | ⟨hmem, hne⟩
      · exact h
      · have hidle := alone other hmem (by rw [show current.worldId = some worldId from hworld]; simp)
          (hworld'.trans hworld.symm) hne
        simp [hidle] at hactive

/-- Mutual exclusion per world, at every point of a run in which every request for the world
goes through the conflict policy: the contenders obey the matrix, what is created beside its
own kind waits, and a claimed operation runs alone. -/
theorem served_exclusive (svc : OperationService) (calls : List (OpCall × Env)) (db : Database)
    (log : Log) (worldId : String) (unique : db.UniqueOperations)
    (start : Exclusive (contenders db worldId))
    (checked : ∀ c ∈ calls, ∀ request initial allow, c.1 = .create request initial allow →
      request.worldId = some worldId → allow = false) :
    ∀ s ∈ serve svc calls ⟨.closed db, log⟩,
      Exclusive (contenders s.before worldId) ∧ Exclusive (contenders s.after worldId) ∧
        s.Waits worldId ∧ s.ClaimsAlone worldId := by
  have chain := serve_chain svc calls db log
  have checked : ∀ s ∈ serve svc calls ⟨.closed db, log⟩, ∀ request initial allow,
      s.call = .create request initial allow → request.worldId = some worldId →
      allow = false := by
    intro s hs request initial allow hcall
    obtain ⟨c, hc, hsame⟩ := serve_call hs
    exact checked c hc request initial allow (hsame.symm.trans hcall)
  have inv := chain.invariant (I := fun db => db.UniqueOperations ∧
      ((contenders db worldId).map (·.opType)).Pairwise Together)
    (fun s hs r effect h => ⟨effect.unique h.1, effect.together (checked s hs) h.1 h.2⟩)
    ⟨unique, together_of_exclusive start⟩
  intro s hs
  obtain ⟨⟨hunique, hbefore⟩, hunique', hafter⟩ := inv s hs
  refine ⟨exclusive_of_together hbefore, exclusive_of_together hafter, ?_, ?_⟩
  · intro op hop hworld hnew beside
    rcases chain.sound s hs with ⟨-, same⟩ | ⟨r, effect, -⟩
    · rw [same] at hop
      simp [hasOperation_iff.mpr (List.mem_map.mpr ⟨op, hop, rfl⟩)] at hnew
    · exact effect.waits (checked s hs) hunique hop hworld hnew beside
  · intro opId hcall old hold hid hqueued op hop hid' hrunning hworld other hother hworld' hactive
    rcases chain.sound s hs with ⟨-, same⟩ | ⟨r, effect, -⟩
    · rw [same] at hop
      obtain rfl := nodup_key_inj hunique hop hold (hid'.trans hid.symm)
      simp [hqueued] at hrunning
    · rw [hcall] at effect
      exact effect.claimsAlone hunique hold hid hqueued hop hid' hrunning hworld hother hworld'
        hactive

/-- A Backup, a second one beside it, and an attempt to claim that one. -/
def twoBackups : List (OpCall × Env) :=
  [(.create { opType := .backup, actorType := .system, worldId := some "w" } .running false,
      .smooth "op1"),
    (.create { opType := .backup, actorType := .system, worldId := some "w" } .running false,
      .smooth "op2"),
    (.claim "op2", .smooth "op3")]

theorem served_exclusive_twice : ∃ s ∈ serve ⟨false, false⟩ twoBackups ⟨.closed (.single .off), []⟩,
    Exclusive (contenders s.before "w") ∧ Exclusive (contenders s.after "w") ∧
      s.Waits "w" ∧ s.ClaimsAlone "w" := by
  obtain ⟨s, hs⟩ := List.exists_mem_of_ne_nil
    (serve ⟨false, false⟩ twoBackups ⟨.closed (.single .off), []⟩) (List.cons_ne_nil _ _)
  refine ⟨s, hs, served_exclusive _ _ _ _ "w" ?_ (exclusive_of_together ?_) ?_ s hs⟩
  · simp [Database.UniqueOperations, Database.single]
  · simp [contenders, Database.single]
  · intro c hc request initial allow h _
    simp only [twoBackups, List.mem_cons, List.not_mem_nil, or_false] at hc
    rcases hc with rfl | rfl | rfl <;> cases h <;> rfl

end Operations

end McManager
