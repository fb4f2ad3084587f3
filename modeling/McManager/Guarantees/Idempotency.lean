import McManager.Services.OperationInvariants

namespace McManager

open Framework

/-- `ux_operations_idempotency`: at most one operation per type and key. -/
def Database.UniqueKeys (db : Database) : Prop :=
  ∀ a ∈ db.operations, ∀ b ∈ db.operations, a.opType = b.opType →
    a.idempotencyKey = b.idempotencyKey → a.idempotencyKey ≠ none → a.opId = b.opId

namespace Operations

theorem keyTaken_iff {db : Database} {opType : OperationType} {key : Option String} :
    db.keyTaken opType key = true ↔
      key ≠ none ∧ ∃ op ∈ db.operations, op.opType = opType ∧ op.idempotencyKey = key := by
  simp [Database.keyTaken, Option.isSome_iff_ne_none]

/-- The operation a keyed request is answered with although its key is unused: the repeat
check finds a Start or Stop of the world in flight. -/
def divertedTo (db : Database) (request : OperationInput) (allow : Bool) : Option Operation :=
  if db.keyTaken request.opType request.idempotencyKey then none else repeatOf db request allow

/-- Every old row of a later database is the successor of one earlier row with its key. -/
def KeysFrom (db db' : Database) : Prop :=
  ∀ new ∈ db'.operations, ∃ old ∈ db.operations, Evolves old new

private theorem keys_of_from {db db' : Database} (keys : db.UniqueKeys) (h : KeysFrom db db') :
    db'.UniqueKeys := by
  intro a ha b hb htype hkey hsome
  obtain ⟨a₀, ha₀, ea⟩ := h a ha
  obtain ⟨b₀, hb₀, eb⟩ := h b hb
  rw [ea.opId, eb.opId]
  rw [ea.opType, eb.opType] at htype
  rw [ea.key, eb.key] at hkey
  rw [ea.key] at hsome
  exact keys a₀ ha₀ b₀ hb₀ htype hkey hsome

private theorem keysFrom_refl (db : Database) : KeysFrom db db :=
  fun op hop => ⟨op, hop, .refl op⟩

private theorem keysFrom_replaceOperation {db : Database} {op new : Operation}
    (hop : op ∈ db.operations) (e : Evolves op new) :
    KeysFrom db (replaceOperation db new.opId new) := by
  intro x hx
  rcases (mem_replaceOperation ⟨op, hop, e.opId.symm⟩).mp hx with rfl | ⟨hx, -⟩
  · exact ⟨op, hop, e⟩
  · exact ⟨x, hx, .refl x⟩

private theorem keys_created {db : Database} {victims : List Operation} {now : Int}
    {code : String} {auditIds : Nat → String} {op : Operation} (keys : db.UniqueKeys)
    (fresh : db.keyTaken op.opType op.idempotencyKey = false) :
    (created db victims now code auditIds op).UniqueKeys := by
  have before : ∀ x ∈ (created db victims now code auditIds op).operations,
      x = op ∨ ∃ old ∈ db.operations, Evolves old x := by
    intro x hx
    rcases mem_created.mp hx with rfl | ⟨old, hold, ⟨-, hf, rfl⟩ | ⟨-, rfl⟩⟩
    · exact .inl rfl
    · exact .inr ⟨old, hold, .cancel hf now code⟩
    · exact .inr ⟨x, hold, .refl x⟩
  have clash : ∀ old ∈ db.operations, ∀ x, Evolves old x → x.opType = op.opType →
      x.idempotencyKey = op.idempotencyKey → x.idempotencyKey ≠ none → False := by
    intro old hold x e htype hkey hsome
    have taken : db.keyTaken op.opType op.idempotencyKey = true :=
      keyTaken_iff.mpr ⟨by rwa [← hkey], old, hold, by rw [← e.opType, htype],
        by rw [← e.key, hkey]⟩
    simp [fresh] at taken
  intro a ha b hb htype hkey hsome
  rcases before a ha with rfl | ⟨a₀, ha₀, ea⟩ <;> rcases before b hb with rfl | ⟨b₀, hb₀, eb⟩
  · rfl
  · exact (clash b₀ hb₀ b eb htype.symm hkey.symm (by rwa [← hkey])).elim
  · exact (clash a₀ ha₀ a ea htype hkey hsome).elim
  · rw [ea.opId, eb.opId]
    rw [ea.opType, eb.opType] at htype
    rw [ea.key, eb.key] at hkey
    rw [ea.key] at hsome
    exact keys a₀ ha₀ b₀ hb₀ htype hkey hsome

/-- No effect duplicates a key. -/
theorem Effect.keys {svc : OperationService} {call : OpCall} {db db' : Database}
    {r : Option Operation} (h : Effect svc call db r db') (unique : db.UniqueOperations)
    (keys : db.UniqueKeys) : db'.UniqueKeys := by
  cases h with
  | create opId auditIds now h =>
    obtain ⟨-, -, rfl, -⟩ | ⟨-, -, victims, s, code, -, rfl, -, fresh, -, -, rfl⟩ :=
      createBlock_ok unique h
    · exact keys
    · exact keys_created keys fresh
  | claim now h =>
    obtain ⟨-, rfl⟩ | ⟨op, hop, rfl, hq, -, -, rfl⟩ := claimBlock_ok unique h
    · exact keys
    · exact keys_of_from keys (keysFrom_replaceOperation hop (.claim hq now))
  | transition cached now auditId notificationId notifiedAt h =>
    obtain ⟨op, hop, rfl, hopen, h⟩ := transitionBlock_ok unique h
    split at h
    · obtain ⟨rfl, audits, notifications, -, rfl⟩ := h
      exact keys_of_from keys (keysFrom_replaceOperation hop (.advance hopen _ _ _ _))
    · obtain ⟨rfl, rfl⟩ := h
      exact keys

/-- How a keyed request that goes through is answered. -/
inductive Answered (db : Database) (request : OperationInput) (allow : Bool) (op : Operation)
    (db' : Database) : Prop
  | byKey : db.keyTaken request.opType request.idempotencyKey = true → op ∈ db.operations →
      op.opType = request.opType → op.idempotencyKey = request.idempotencyKey → db' = db →
      Answered db request allow op db'
  | diverted : db.keyTaken request.opType request.idempotencyKey = false →
      repeatOf db request allow = some op → db' = db → Answered db request allow op db'
  | fresh : db.keyTaken request.opType request.idempotencyKey = false →
      repeatOf db request allow = none → op ∈ db'.operations → op.opType = request.opType →
      op.idempotencyKey = request.idempotencyKey → db.hasOperation op.opId = false →
      Answered db request allow op db'

theorem Effect.answered {svc : OperationService} {request : OperationInput}
    {initial : OperationStatus} {allow : Bool} {db db' : Database} {op : Operation}
    (unique : db.UniqueOperations)
    (h : Effect svc (.create request initial allow) db (some op) db') :
    Answered db request allow op db' := by
  cases h with
  | create opId auditIds now h =>
    obtain ⟨-, -, rfl, replays⟩ | ⟨-, norepeat, victims, s, code, -, rfl, -, fresh, hnew, -, rfl⟩ :=
      createBlock_ok unique h
    · cases replays with
      | byKey key hkey hop htype hopkey =>
        exact .byKey (keyTaken_iff.mpr ⟨by simp [hkey], op, hop, htype, by rw [hopkey, hkey]⟩)
          hop htype (by rw [hopkey, hkey]) rfl
      | repeated fresh hrep => exact .diverted fresh hrep rfl
    · exact .fresh fresh norepeat (mem_created.mpr (.inl rfl)) rfl rfl hnew

/-- A served request with the given type and key, answered with `op`. -/
def Served.Keyed (s : Served) (opType : OperationType) (key : String) (request : OperationInput)
    (initial : OperationStatus) (allow : Bool) (op : Operation) : Prop :=
  s.call = .create request initial allow ∧ request.opType = opType ∧
    request.idempotencyKey = some key ∧ s.reply = .ok (some op)

/-- The call answered with an operation that was not there before. -/
def Served.Creates (s : Served) (op : Operation) : Prop := s.before.hasOperation op.opId = false

private theorem Served.Keyed.answered {svc : OperationService} {s : Served}
    {opType : OperationType} {key : String} {request : OperationInput}
    {initial : OperationStatus} {allow : Bool} {op : Operation} (sound : s.Sound svc)
    (unique : s.before.UniqueOperations) (h : s.Keyed opType key request initial allow op) :
    Answered s.before request allow op s.after := by
  obtain ⟨hcall, -, -, hreply⟩ := h
  rcases sound with ⟨⟨e, he⟩, -⟩ | ⟨r, effect, same⟩
  · simp [he] at hreply
  · obtain rfl := same _ hreply
    rw [hcall] at effect
    exact effect.answered unique

/-- An operation that is there stays there, with its id, type and key. -/
private theorem RowsKept.find {db db' : Database} (kept : RowsKept db db') {op : Operation}
    (hop : op ∈ db.operations) :
    ∃ new ∈ db'.operations, new.opId = op.opId ∧ new.opType = op.opType ∧
      new.idempotencyKey = op.idempotencyKey := by
  obtain ⟨new, hnew, e⟩ := kept op hop
  exact ⟨new, hnew, e.opId, e.opType, e.key⟩

private theorem hasOperation_of_mem {db : Database} {op : Operation} (h : op ∈ db.operations) :
    db.hasOperation op.opId = true :=
  hasOperation_iff.mpr (List.mem_map.mpr ⟨op, h, rfl⟩)

/-- A key in use answers the later request with the operation it belongs to. -/
private theorem answered_by_key {mid db db' : Database} {request : OperationInput} {allow : Bool}
    {op op' : Operation} (kept : RowsKept mid db) (keys : db.UniqueKeys)
    (hop : op ∈ mid.operations) (htype : op.opType = request.opType)
    (hkey : op.idempotencyKey = request.idempotencyKey) (hsome : request.idempotencyKey ≠ none)
    (h : Answered db request allow op' db') :
    op.opId = op'.opId ∧ db.hasOperation op'.opId = true ∧
      db.keyTaken request.opType request.idempotencyKey = true := by
  obtain ⟨new, hnew, hid, hnewType, hnewKey⟩ := kept.find hop
  have taken : db.keyTaken request.opType request.idempotencyKey = true :=
    keyTaken_iff.mpr ⟨hsome, new, hnew, hnewType.trans htype, hnewKey.trans hkey⟩
  cases h with
  | byKey _ hop' htype' hkey' _ =>
    refine ⟨?_, hasOperation_of_mem hop', taken⟩
    rw [← hid]
    exact keys new hnew op' hop' ((hnewType.trans htype).trans htype'.symm)
      ((hnewKey.trans hkey).trans hkey'.symm) (by rwa [hnewKey, hkey])
  | diverted fresh _ _ => simp [taken] at fresh
  | fresh fresh _ _ _ _ _ => simp [taken] at fresh

/-- Two requests with one key: they agree on the operation exactly when the repeat check
diverts neither, or both to one operation. -/
private theorem answered_pair {before mid db db' : Database} {request request' : OperationInput}
    {allow allow' : Bool} {op op' : Operation} (kept : RowsKept mid db)
    (unique : db.UniqueOperations) (keys : db.UniqueKeys)
    (first : Answered before request allow op mid) (second : Answered db request' allow' op' db')
    (htype : request'.opType = request.opType) (hkey : request'.idempotencyKey = request.idempotencyKey)
    (hsome : request.idempotencyKey ≠ none) :
    (op.opId = op'.opId ∧
        ¬(before.hasOperation op.opId = false ∧ db.hasOperation op'.opId = false)) ↔
      (divertedTo before request allow).map (·.opId) =
        (divertedTo db request' allow').map (·.opId) := by
  have known : ∀ o ∈ mid.operations, o.opType = request.opType →
      o.idempotencyKey = request.idempotencyKey →
      o.opId = op'.opId ∧ db.hasOperation op'.opId = true ∧
        db.keyTaken request'.opType request'.idempotencyKey = true := by
    intro o ho ht hk
    exact answered_by_key kept keys ho (ht.trans htype.symm) (hk.trans hkey.symm)
      (by rwa [hkey]) second
  cases first with
  | byKey taken hop ht hk same =>
    subst same
    obtain ⟨hid, hthere, taken'⟩ := known op hop ht hk
    simp [divertedTo, taken, taken', hid, hthere]
  | fresh unused norepeat hop ht hk hnew =>
    obtain ⟨hid, hthere, taken'⟩ := known op hop ht hk
    simp [divertedTo, unused, norepeat, taken', hid, hthere]
  | diverted unused hrep same =>
    subst same
    have hmem := (repeatOf_some hrep).1
    have hthere := hasOperation_of_mem hmem
    cases second with
    | diverted unused' hrep' _ => simp [divertedTo, unused, unused', hrep, hrep', hthere]
    | fresh unused' norepeat' _ _ _ hnew' =>
      -- The diverted operation is still there, so the new one is another one.
      have hne : op.opId ≠ op'.opId := by
        intro hid
        obtain ⟨new, hnew, hnewId, -, -⟩ := kept.find hmem
        have := hasOperation_of_mem hnew
        rw [hnewId, hid, hnew'] at this
        simp at this
      simp [divertedTo, unused, unused', hrep, norepeat', hne]
    | byKey taken' hop' htype' hkey' _ =>
      have hne : op.opId ≠ op'.opId := by
        intro hid
        obtain ⟨new, hnew, e⟩ := kept op hmem
        obtain rfl := nodup_key_inj unique hnew hop' (e.opId.trans hid)
        have taken : mid.keyTaken request.opType request.idempotencyKey = true :=
          keyTaken_iff.mpr ⟨hsome, op, hmem, (repeatOf_some hrep).2.2.1,
            by rw [← e.key, hkey', hkey]⟩
        simp [unused] at taken
      simp [divertedTo, unused, taken', hrep, hne]

/-- Two requests of a run with one type and key that both return: they are answered with one
operation, which at most one of them created, exactly when the repeat check diverts neither
of them, or both to one operation. -/
theorem keyed_requests_agree_iff (svc : OperationService) (calls : List (OpCall × Env))
    (db : Database) (log : Log) (unique : db.UniqueOperations) (keys : db.UniqueKeys) :
    (serve svc calls ⟨.closed db, log⟩).Pairwise fun s t =>
      ∀ opType key request initial allow op request' initial' allow' op',
        s.Keyed opType key request initial allow op →
        t.Keyed opType key request' initial' allow' op' →
        ((op.opId = op'.opId ∧ ¬(s.Creates op ∧ t.Creates op')) ↔
          (divertedTo s.before request allow).map (·.opId) =
            (divertedTo t.before request' allow').map (·.opId)) := by
  have chain := serve_chain svc calls db log
  have inv := chain.invariant (I := fun db => db.UniqueOperations ∧ db.UniqueKeys)
    (fun s _ r effect h => ⟨effect.unique h.1, effect.keys h.1 h.2⟩) ⟨unique, keys⟩
  have related := (chain.related (I := Database.UniqueOperations) RowsKept.refl
    (fun _ _ _ => RowsKept.trans) (fun s hs => (inv s hs).1.1)
    (fun s _ r h effect => effect.rowsKept h)).2
  refine related.imp_of_mem ?_
  intro s t hs ht kept opType key request initial allow op request' initial' allow' op' hk hk'
  have first := hk.answered (chain.sound s hs) (inv s hs).1.1
  have second := hk'.answered (chain.sound t ht) (inv t ht).1.1
  exact answered_pair kept (inv t ht).1.1 (inv t ht).1.2 first second
    (hk'.2.1.trans hk.2.1.symm) (hk'.2.2.1.trans hk.2.2.1.symm) (by simp [hk.2.2.1])

def startOf (key : String) : OperationInput :=
  { opType := .start, actorType := .system, worldId := some "w", idempotencyKey := some key }

/-- A Start with one key, one with another key, the end of the first, and a retry. -/
def startOver : List (OpCall × Env) :=
  [(.create (startOf "k1") .running false, .smooth "op1"),
    (.create (startOf "k2") .running false, .smooth "op2"),
    (.transition "op1" .completed {}, .smooth "op3"),
    (.create (startOf "k2") .running false, .smooth "op4")]

theorem keyed_requests_agree_once : (serve ⟨false, false⟩ startOver ⟨.closed (.single .off), []⟩).Pairwise
    fun s t => ∀ opType key request initial allow op request' initial' allow' op',
      s.Keyed opType key request initial allow op →
      t.Keyed opType key request' initial' allow' op' →
      ((op.opId = op'.opId ∧ ¬(s.Creates op ∧ t.Creates op')) ↔
        (divertedTo s.before request allow).map (·.opId) =
          (divertedTo t.before request' allow').map (·.opId)) :=
  keyed_requests_agree_iff _ _ _ _ (by simp [Database.UniqueOperations, Database.single])
    (by simp [Database.UniqueKeys, Database.single])

/-- The second request with `k2` is answered with the Start of `k1`; after that one has ended
the retry creates a second Start. -/
theorem keyed_requests_disagree : ¬∀ (svc : OperationService) (calls : List (OpCall × Env))
    (db : Database) (log : Log), db.UniqueOperations → db.UniqueKeys →
    (serve svc calls ⟨.closed db, log⟩).Pairwise fun s t =>
      ∀ opType key request initial allow op request' initial' allow' op',
        s.Keyed opType key request initial allow op →
        t.Keyed opType key request' initial' allow' op' →
        op.opId = op'.opId ∧ ¬(s.Creates op ∧ t.Creates op') := by
  intro h
  have h := h ⟨false, false⟩ startOver (.single .off) [] (by simp [Database.UniqueOperations, Database.single])
    (by simp [Database.UniqueKeys, Database.single])
  obtain ⟨-, h⟩ := List.pairwise_cons.mp h
  obtain ⟨h, -⟩ := List.pairwise_cons.mp h
  have h := h _ (.tail _ (.head _)) .start "k2" (startOf "k2") .running false
    (newOperation (startOf "k1") "op1" .running 0) (startOf "k2") .running false
    (newOperation (startOf "k2") "op4" .running 0) ⟨rfl, rfl, rfl, by rfl⟩ ⟨rfl, rfl, rfl, by rfl⟩
  exact absurd h.1 (by decide)

end Operations

end McManager
