import Mathlib.Data.String.Basic
import McManager.Web.StreamClient

namespace McManager.StreamClient

/-- An event source is open only in a leader whose session has not expired, and only an open tab
leads. -/
structure Tab.Sound {Id : Type} (t : Tab Id) : Prop where
  source : t.eventSource = true → t.isLeader = true ∧ t.authExpired = false
  leader : t.isLeader = true → t.closed = false

/-- What every handler makes of a tab. -/
structure Tab.Keeps {Id : Type} (t t' : Tab Id) : Prop where
  sound : t'.Sound
  tabId : t'.tabId = t.tabId

section Handlers

variable {Id : Type} {t t' : Tab Id}

theorem Tab.Sound.idle (h : t.Sound) (idle : t.isLeader = false) : t.eventSource = false := by
  rw [Bool.eq_false_iff]
  intro opened
  rw [(h.source opened).1] at idle
  cases idle

/-- A change of what neither the event source nor the leader depends on. -/
theorem Tab.Sound.same (h : t.Sound) (tabId : t'.tabId = t.tabId)
    (source : t'.eventSource = t.eventSource) (leader : t'.isLeader = t.isLeader)
    (expired : t'.authExpired = t.authExpired) (closed : t'.closed = t.closed) : t.Keeps t' := by
  refine ⟨⟨?_, ?_⟩, tabId⟩
  · rw [source, leader, expired]
    exact h.source
  · rw [leader, closed]
    exact h.leader

theorem isLeader_resign (t : Tab Id) : t.resign.isLeader = false := by
  unfold Tab.resign
  split
  · rfl
  · rename_i idle
    exact Bool.eq_false_iff.mpr idle

theorem tabId_resign (t : Tab Id) : t.resign.tabId = t.tabId := by
  unfold Tab.resign
  split <;> rfl

theorem eventSource_resign (idle : t.isLeader = false → t.eventSource = false) :
    t.resign.eventSource = false := by
  unfold Tab.resign
  split
  · rfl
  · rename_i other
    exact idle (Bool.eq_false_iff.mpr other)

/-- A tab that resigns is sound whatever else it is. -/
theorem keeps_resign (idle : t.isLeader = false → t.eventSource = false)
    (tabId : t.tabId = t'.tabId) : t'.Keeps t.resign := by
  refine ⟨⟨?_, ?_⟩, (tabId_resign t).trans tabId⟩
  · rw [eventSource_resign idle]
    exact fun opened => nomatch opened
  · rw [isLeader_resign]
    exact fun leads => nomatch leads

theorem Tab.Keeps.trans {t'' : Tab Id} (h : t.Keeps t') (h' : t'.Keeps t'') : t.Keeps t'' :=
  ⟨h'.sound, h'.tabId.trans h.tabId⟩

theorem Tab.Sound.becomeLeader (h : t.Sound) : t.Keeps t.becomeLeader.1 := by
  unfold Tab.becomeLeader
  split
  · exact ⟨h, rfl⟩
  · rename_i free
    simp only [Bool.or_eq_true, not_or, Bool.not_eq_true] at free
    obtain ⟨⟨opened, valid⟩, -⟩ := free
    cases events : t.supportsEvents with
    | true => exact ⟨⟨fun _ => ⟨rfl, valid⟩, fun _ => opened⟩, rfl⟩
    | false => exact ⟨⟨fun _ => ⟨rfl, valid⟩, fun _ => opened⟩, rfl⟩

theorem Tab.Sound.shutdown (h : t.Sound) : t.Keeps t.shutdown.1 := by
  unfold Tab.shutdown
  split
  · exact ⟨h, rfl⟩
  · have resigned : t.Keeps t.resign := keeps_resign h.idle rfl
    refine ⟨⟨resigned.sound.source, ?_⟩, resigned.tabId⟩
    intro leads
    exact absurd (leads.symm.trans (isLeader_resign t)) (by decide)

/-- A tab whose session has expired. -/
theorem Tab.Sound.expire (h : t.Sound) : t.Keeps (Tab.resign { t with authExpired := true }) :=
  keeps_resign h.idle rfl

theorem Tab.Sound.handleStreamEvent (h : t.Sound) (p : Payload) :
    t.Keeps (t.handleStreamEvent p).1 := by
  unfold Tab.handleStreamEvent
  have first : t.Keeps
      (if Tab.sessionExpired p then Tab.resign { t with authExpired := true } else t) := by
    split
    · exact h.expire
    · exact ⟨h, rfl⟩
  dsimp only
  split
  · exact first.trans first.sound.shutdown
  · exact first

theorem Tab.Sound.create (id : Id) (channel supportsEvents : Bool) (now : Int) :
    (Tab.create id channel supportsEvents now).1.Sound ∧
      (Tab.create id channel supportsEvents now).1.tabId = id := by
  have fresh : Tab.Sound { tabId := id, channel, supportsEvents, peers := [(id, now)] } :=
    ⟨fun opened => (nomatch opened), fun leads => (nomatch leads)⟩
  unfold Tab.create
  dsimp only
  split
  · exact ⟨⟨fun opened => (nomatch opened), fun leads => (nomatch leads)⟩, rfl⟩
  · exact ⟨fresh.becomeLeader.sound, fresh.becomeLeader.tabId⟩

variable [LinearOrder Id]

theorem Tab.Sound.elect (h : t.Sound) (now : Int) : t.Keeps (t.elect now).1 := by
  unfold Tab.elect
  have stopped : t.Keeps { t with electionTimer := false } := h.same rfl rfl rfl rfl rfl
  dsimp only
  split
  · exact stopped
  · have pruned : t.Keeps (Tab.prune { t with electionTimer := false } now) :=
      h.same rfl rfl rfl rfl rfl
    split
    · exact pruned
    · split
      · exact pruned.trans pruned.sound.becomeLeader
      · exact h.same rfl rfl rfl rfl rfl

theorem Tab.Sound.monitorLeader (h : t.Sound) (now : Int) : t.Keeps (t.monitorLeader now) := by
  unfold Tab.monitorLeader
  dsimp only
  split
  · exact ⟨h, rfl⟩
  · split <;> exact h.same rfl rfl rfl rfl rfl

theorem Tab.Sound.yieldTo (h : t.Sound) (sender : Id) : t.Keeps (t.yieldTo sender) := by
  unfold Tab.yieldTo
  split
  · exact keeps_resign h.idle rfl
  · exact ⟨h, rfl⟩

theorem Tab.Sound.follow (h : t.Sound) (sender : Id) : t.Keeps (t.follow sender) := by
  unfold Tab.follow
  split
  · exact h.same rfl rfl rfl rfl rfl
  · exact ⟨h, rfl⟩

theorem Tab.Sound.onChannelMessage (h : t.Sound) (sender : Id) (now : Int) (m : Message) :
    t.Keeps (t.onChannelMessage sender now m).1 := by
  cases m with
  | hello => exact h.same rfl rfl rfl rfl rfl
  | heartbeat =>
    have seen : t.Keeps { t with peers := mapSet t.peers sender now } :=
      h.same rfl rfl rfl rfl rfl
    have yielded := seen.trans (seen.sound.yieldTo sender)
    exact yielded.trans (yielded.sound.follow sender)
  | leaderLeave =>
    unfold Tab.onChannelMessage
    dsimp only
    split <;> exact h.same rfl rfl rfl rfl rfl
  | authResumed =>
    unfold Tab.onChannelMessage
    dsimp only
    split
    · refine ⟨⟨?_, h.leader⟩, rfl⟩
      intro opened
      exact ⟨(h.source opened).1, rfl⟩
    · exact keeps_resign h.idle rfl
  | streamEvent p =>
    dsimp only [Tab.onChannelMessage]
    split
    · exact h.shutdown
    · split
      · exact h.expire
      · exact ⟨h, rfl⟩

theorem Tab.Sound.resumeAfterAuthentication (h : t.Sound) (now : Int) :
    t.Keeps (t.resumeAfterAuthentication now).1 := by
  unfold Tab.resumeAfterAuthentication
  split
  · exact ⟨h, rfl⟩
  · have valid : t.Keeps { t with authExpired := false, leaderId := some t.tabId } := by
      refine ⟨⟨?_, h.leader⟩, rfl⟩
      intro opened
      exact ⟨(h.source opened).1, rfl⟩
    have seen : t.Keeps
        (if t.channel then
          { t with
            authExpired := false
            leaderId := some t.tabId
            peers := mapSet t.peers t.tabId now }
        else { t with authExpired := false, leaderId := some t.tabId }) := by
      split
      · exact valid.trans (valid.sound.same rfl rfl rfl rfl rfl)
      · exact valid
    exact seen.trans seen.sound.becomeLeader

theorem isLeader_follow (t : Tab Id) (sender : Id) : (t.follow sender).isLeader = t.isLeader := by
  unfold Tab.follow
  split <;> rfl

/-- A heartbeat makes nobody a leader, and ends the lead of a larger id. -/
theorem heartbeat_yields {sender : Id} {now : Int}
    (leads : (t.onChannelMessage sender now .heartbeat).1.isLeader = true) :
    t.isLeader = true ∧ ¬sender < t.tabId := by
  have leads := (isLeader_follow _ _).symm.trans leads
  unfold Tab.yieldTo at leads
  split at leads
  · exact absurd (leads.symm.trans (isLeader_resign _)) (by decide)
  · rename_i stays
    exact ⟨leads, fun smaller => stays ⟨leads, smaller⟩⟩

end Handlers

/-- The invariant of a browser. The last part is what makes double leaders disappear: nobody
leads who has heard a smaller id's heartbeat that was posted since it became leader. -/
structure Good {Id : Type} [LinearOrder Id] (b : Browser Id) : Prop where
  tabs : ∀ id t, b.tabs id = some t → t.Sound ∧ t.tabId = id
  posted : ∀ s r x, x ∈ b.inFlight s r → x.1 < b.clock
  heard : ∀ s r n, n ∈ b.heard s r → n < b.clock
  yields : ∀ s r t n, b.tabs r = some t → t.isLeader = true → n ∈ b.heard s r → b.led r ≤ n →
    ¬s < r

section Runs

variable {Id : Type} [LinearOrder Id] {b : Browser Id}

theorem Good.init : Good ({} : Browser Id) where
  tabs _ _ there := nomatch there
  posted _ _ _ on := nomatch on
  heard _ _ _ on := nomatch on
  yields _ _ _ _ there := nomatch there

/-- A tab with this id is replaced. It may go on as a leader; one that is new in the lead has not
heard a heartbeat that was posted since. -/
theorem Good.settle (good : Good b) {id : Id} {led : Bool} {e : Effect Id}
    (tab : e.1.Sound ∧ e.1.tabId = id)
    (before : e.1.isLeader = true → led = false → ∃ t, b.tabs id = some t ∧ t.isLeader = true) :
    Good (b.settle id led e) where
  tabs := by
    intro x t there
    simp only [Browser.settle] at there
    split at there
    · rename_i same
      obtain rfl := Option.some.inj there
      exact ⟨tab.1, tab.2.trans same.symm⟩
    · exact good.tabs x t there
  posted := by
    intro s r x on
    simp only [Browser.settle] at on ⊢
    have old : x ∈ b.inFlight s r → x.1 < b.clock + 1 :=
      fun on => Nat.lt_succ_of_lt (good.posted s r x on)
    split at on
    · obtain on | now := List.mem_append.mp on
      · exact old on
      · obtain ⟨m, -, rfl⟩ := List.mem_map.mp now
        exact Nat.lt_succ_self _
    · exact old on
  heard s r n on := Nat.lt_succ_of_lt (good.heard s r n on)
  yields := by
    intro s r t n there leads on since
    have past := good.heard s r n on
    simp only [Browser.settle] at there since
    by_cases same : r = id
    · subst same
      rw [if_pos rfl] at there
      obtain rfl := Option.some.inj there
      cases fresh : led with
      | true =>
        simp only [fresh, and_self, if_true] at since
        omega
      | false =>
        obtain ⟨t, there, led⟩ := before leads fresh
        simp only [fresh, Bool.false_eq_true, and_false, if_false] at since
        exact good.yields s r t n there led on since
    · rw [if_neg same] at there
      rw [if_neg (fun both => same both.1)] at since
      exact good.yields s r t n there leads on since

theorem Good.act (good : Good b) {id : Id} {f : Tab Id → Effect Id}
    (keeps : ∀ t : Tab Id, t.Sound → t.Keeps (f t).1) : Good (b.act id f) := by
  unfold Browser.act
  cases there : b.tabs id with
  | none => exact good
  | some t =>
    obtain ⟨sound, named⟩ := good.tabs id t there
    have kept := keeps t sound
    apply good.settle ⟨kept.sound, kept.tabId.trans named⟩
    intro leads old
    refine ⟨t, there, ?_⟩
    cases idle : t.isLeader with
    | true => rfl
    | false => simp [idle, leads] at old

/-- A heartbeat is recorded as delivered. -/
theorem Good.hear (good : Good b) {sender receiver : Id} {n : Nat} {beat : Bool}
    (past : n < b.clock)
    (yields : beat = true → ∀ t, b.tabs receiver = some t → t.isLeader = true →
      ¬sender < receiver) :
    Good { b with
      heard := fun s r =>
        if s = sender ∧ r = receiver ∧ beat then n :: b.heard s r else b.heard s r } where
  tabs := good.tabs
  posted := good.posted
  heard := by
    intro s r k on
    dsimp only at on
    split at on
    · obtain rfl | on := List.mem_cons.mp on
      · exact past
      · exact good.heard s r k on
    · exact good.heard s r k on
  yields := by
    intro s r t k there leads on since
    dsimp only at on
    split at on
    · rename_i here
      obtain ⟨rfl, rfl, beat⟩ := here
      exact yields beat t there leads
    · exact good.yields s r t k there leads on since

theorem act_heard (b : Browser Id) (heard : Id → Id → List Nat) (id : Id)
    (f : Tab Id → Effect Id) :
    ({ b with heard } : Browser Id).act id f = { b.act id f with heard } := by
  unfold Browser.act
  cases b.tabs id with
  | none => rfl
  | some t => rfl

theorem clock_act (b : Browser Id) (id : Id) (f : Tab Id → Effect Id) :
    b.clock ≤ (b.act id f).clock ∧ (b.act id f).heard = b.heard := by
  unfold Browser.act
  cases b.tabs id with
  | none => exact ⟨Nat.le_refl _, rfl⟩
  | some t => exact ⟨Nat.le_succ _, rfl⟩

theorem tabs_act {id : Id} {f : Tab Id → Effect Id} {t' : Tab Id}
    (there : (b.act id f).tabs id = some t') : ∃ t, b.tabs id = some t ∧ t' = (f t).1 := by
  unfold Browser.act at there
  cases before : b.tabs id with
  | none =>
    rw [before] at there
    exact absurd (there.symm.trans before) (by simp)
  | some t =>
    rw [before] at there
    simp only [Browser.settle, if_true] at there
    exact ⟨t, rfl, (Option.some.inj there).symm⟩

theorem Good.deliver (good : Good b) (sender receiver : Id) (now : Int) :
    Good (b.deliver sender receiver now) := by
  unfold Browser.deliver
  cases queue : b.inFlight sender receiver with
  | nil => exact good
  | cons x rest =>
    obtain ⟨posted, m⟩ := x
    have past : posted < b.clock := good.posted sender receiver (posted, m) (by simp [queue])
    dsimp only
    let popped : Browser Id := { b with
      inFlight := fun s r => if s = sender ∧ r = receiver then rest else b.inFlight s r }
    have rest' : Good popped := by
      refine ⟨good.tabs, ?_, good.heard, good.yields⟩
      intro s r x on
      dsimp only [popped] at on
      split at on
      · rename_i here
        obtain ⟨rfl, rfl⟩ := here
        exact good.posted s r x (by simp [queue, on])
      · exact good.posted s r x on
    split
    · rw [act_heard popped]
      have handled : Good (popped.act receiver fun t => t.onChannelMessage sender now m) :=
        rest'.act fun t sound => sound.onChannelMessage sender now m
      have later := clock_act popped receiver fun t => t.onChannelMessage sender now m
      have past : posted < (popped.act receiver fun t => t.onChannelMessage sender now m).clock :=
        Nat.lt_of_lt_of_le past later.1
      have larger : Browser.isHeartbeat m = true → ∀ t,
          (popped.act receiver fun t => t.onChannelMessage sender now m).tabs receiver = some t →
          t.isLeader = true → ¬sender < receiver := by
        intro beat t' there leads
        obtain ⟨t, before, rfl⟩ := tabs_act there
        cases m with
        | heartbeat =>
          have named : t.tabId = receiver := (good.tabs receiver t before).2
          rw [← named]
          exact (heartbeat_yields leads).2
        | hello => cases beat
        | leaderLeave => cases beat
        | authResumed => cases beat
        | streamEvent p => cases beat
      have next := handled.hear past larger
      rw [later.2] at next
      exact next
    · exact rest'

theorem Good.step (good : Good b) (m : Move Id) : Good (b.step m) := by
  cases m with
  | openTab id channel supportsEvents now =>
    rw [Browser.step]
    split
    · exact good
    · apply good.settle (Tab.Sound.create id channel supportsEvents now)
      intro leads old
      exact absurd (leads.symm.trans old) (by decide)
  | deliver sender receiver now => exact good.deliver sender receiver now
  | elect id now =>
    apply good.act
    intro t sound
    split
    · exact sound.elect now
    · exact ⟨sound, rfl⟩
  | monitor id now =>
    apply good.act
    intro t sound
    dsimp only
    split
    · exact sound.monitorLeader now
    · exact ⟨sound, rfl⟩
  | heartbeat id =>
    apply good.act
    intro t sound
    split <;> exact ⟨sound, rfl⟩
  | streamEvent id p =>
    apply good.act
    intro t sound
    split
    · exact sound.handleStreamEvent p
    · exact ⟨sound, rfl⟩
  | resume id now => exact good.act fun t sound => sound.resumeAfterAuthentication now
  | shutdown id => exact good.act fun t sound => sound.shutdown
  | kill id =>
    apply good.act
    intro t sound
    have resigned : t.Keeps t.resign := keeps_resign sound.idle rfl
    refine ⟨⟨resigned.sound.source, ?_⟩, resigned.tabId⟩
    intro leads
    exact absurd (leads.symm.trans (isLeader_resign t)) (by decide)

theorem Good.run (good : Good b) (moves : List (Move Id)) : Good (b.run moves) := by
  induction moves generalizing b with
  | nil => exact good
  | cons m moves ih => exact ih (good.step m)

end Runs

section Leaders

variable {Id : Type} [LinearOrder Id]

/-- An open tab that leads. -/
def Browser.Leads (b : Browser Id) (id : Id) : Prop :=
  ∃ t, b.tabs id = some t ∧ t.closed = false ∧ t.isLeader = true

def Browser.Open (b : Browser Id) (id : Id) : Prop :=
  ∃ t, b.tabs id = some t ∧ t.closed = false

/-- The tab has posted a heartbeat at this moment or later, and the heartbeat was delivered to all
other open tabs. -/
def Browser.Announced (b : Browser Id) (id : Id) (since : Nat) : Prop :=
  ∃ n ∈ b.sent id, since ≤ n ∧ ∀ other, b.Open other → other ≠ id → n ∈ b.heard id other

/-- In every run of any number of tabs: when every leader has announced itself since each of the
leaders last became one, there is at most one leader; and at any time only an open leader whose
session has not expired has an open event source. -/
theorem one_leader (moves : List (Move Id)) :
    ((∀ a c, (Browser.run {} moves).Leads a → (Browser.run {} moves).Leads c →
        (Browser.run {} moves).Announced a ((Browser.run {} moves).led c)) →
      ∀ a c, (Browser.run {} moves).Leads a → (Browser.run {} moves).Leads c → a = c) ∧
    ∀ id t, (Browser.run {} moves).tabs id = some t → t.eventSource = true →
      t.isLeader = true ∧ t.closed = false ∧ t.authExpired = false := by
  have good : Good (Browser.run {} moves) := Good.init.run moves
  constructor
  · intro announced
    have smaller : ∀ a c, (Browser.run {} moves).Leads a → (Browser.run {} moves).Leads c →
        ¬a < c := by
      intro a c ha hc less
      obtain ⟨n, -, since, heard⟩ := announced a c ha hc
      obtain ⟨t, there, opened, leads⟩ := hc
      exact good.yields a c t n there leads (heard c ⟨t, there, opened⟩ (ne_of_gt less)) since less
    intro a c ha hc
    obtain less | same | less := lt_trichotomy a c
    · exact absurd less (smaller a c ha hc)
    · exact same
    · exact absurd less (smaller c a hc ha)
  · intro id t there opened
    have sound := (good.tabs id t there).1
    obtain ⟨leads, valid⟩ := sound.source opened
    exact ⟨leads, sound.leader leads, valid⟩

/-- A tab that was not opened does not exist. -/
theorem tabs_run {b : Browser Id} {id : Id} (absent : b.tabs id = none) (moves : List (Move Id))
    (other : ∀ m ∈ moves, ∀ channel supportsEvents now,
      m ≠ .openTab id channel supportsEvents now) : (b.run moves).tabs id = none := by
  have act : ∀ (b : Browser Id) x (f : Tab Id → Effect Id), b.tabs id = none →
      (b.act x f).tabs id = none := by
    intro b x f absent
    unfold Browser.act
    cases there : b.tabs x with
    | none => exact absent
    | some t =>
      have differs : id ≠ x := by
        intro same
        rw [same, there] at absent
        cases absent
      simp only [Browser.settle, if_neg differs]
      exact absent
  induction moves generalizing b with
  | nil => exact absent
  | cons m moves ih =>
    apply ih _ fun m' hm' => other m' (List.mem_cons_of_mem _ hm')
    cases m with
    | openTab x channel supportsEvents now =>
      have differs : id ≠ x := by
        intro same
        exact other _ (List.mem_cons_self ..) channel supportsEvents now (by rw [same])
      rw [Browser.step]
      split
      · exact absent
      · simp only [Browser.settle, if_neg differs]
        exact absent
    | deliver s r now =>
      rw [Browser.step, Browser.deliver]
      split
      · exact absent
      · dsimp only
        split
        · exact act _ _ _ absent
        · exact absent
    | elect x now => exact act _ _ _ absent
    | monitor x now => exact act _ _ _ absent
    | heartbeat x => exact act _ _ _ absent
    | streamEvent x p => exact act _ _ _ absent
    | resume x now => exact act _ _ _ absent
    | shutdown x => exact act _ _ _ absent
    | kill x => exact act _ _ _ absent

end Leaders

/-- The second tab follows the first, whose heartbeat it has heard. -/
def followed : List (Move String) :=
  [.openTab "1" true true 0, .elect "1" 120, .openTab "2" true true 200, .heartbeat "1",
    .deliver "1" "2" 3200]

/-- Then the second tab hears nothing for a while and takes the lead as well; each tab has been
heard by the other since it became leader. -/
def doubled : List (Move String) :=
  followed ++ [.monitor "2" 12000, .elect "2" 12100, .deliver "2" "1" 12200,
    .deliver "2" "1" 12200]

theorem opened_followed {id : String} (more : List (Move String))
    (noneOpens : ∀ m ∈ more, ∀ id channel supportsEvents now,
      m ≠ .openTab id channel supportsEvents now)
    (there : (Browser.run {} (followed ++ more)).Open id) : id = "1" ∨ id = "2" := by
  by_contra other
  rw [not_or] at other
  have absent : (Browser.run {} (followed ++ more)).tabs id = none := by
    apply tabs_run rfl
    intro m hm channel supportsEvents now same
    obtain first | later := List.mem_append.mp hm
    · rw [same] at first
      simp [followed, other.1, other.2] at first
    · exact noneOpens m later id channel supportsEvents now same
  obtain ⟨t, there, -⟩ := there
  rw [absent] at there
  cases there

theorem followed_one_leader :
    ∀ a c, (Browser.run {} followed).Leads a → (Browser.run {} followed).Leads c → a = c := by
  have only : ∀ a, (Browser.run {} followed).Leads a → a = "1" := by
    intro a leads
    obtain ⟨t, there, opened, lead⟩ := leads
    obtain rfl | rfl := opened_followed [] (fun m hm => nomatch hm) ⟨t, there, opened⟩
    · rfl
    · have idle : ((Browser.run {} followed).tabs "2").all (fun t => !t.isLeader) = true := by
        decide +kernel
      rw [there, Option.all_some, lead] at idle
      cases idle
  apply (one_leader followed).1
  intro a c ha hc
  obtain rfl := only a ha
  obtain rfl := only c hc
  refine ⟨3, by decide +kernel, by decide +kernel, ?_⟩
  intro other there differs
  obtain rfl | rfl := opened_followed [] (fun m hm => nomatch hm) there
  · exact absurd rfl differs
  · decide +kernel

theorem doubled_leaders :
    ¬∀ moves : List (Move String),
      ((∀ a, (Browser.run {} moves).Leads a →
          (Browser.run {} moves).Announced a ((Browser.run {} moves).led a)) →
        ∀ a c, (Browser.run {} moves).Leads a → (Browser.run {} moves).Leads c → a = c) ∧
      ∀ id t, (Browser.run {} moves).tabs id = some t → t.eventSource = true →
        t.isLeader = true ∧ t.closed = false ∧ t.authExpired = false := by
  intro claim
  have only : ∀ id, (Browser.run {} doubled).Open id → id = "1" ∨ id = "2" := by
    intro id there
    exact opened_followed _ (by simp) there
  have leads : ∀ id, ((Browser.run {} doubled).tabs id).any (fun t => !t.closed && t.isLeader) =
      true → (Browser.run {} doubled).Leads id := by
    intro id there
    obtain ⟨t, there, lead⟩ := (Option.any_eq_true ..).mp there
    simp only [Bool.and_eq_true, Bool.not_eq_true'] at lead
    exact ⟨t, there, lead⟩
  have same : "1" = "2" := by
    apply (claim doubled).1
    · intro a ha
      obtain ⟨t, there, opened, -⟩ := ha
      obtain rfl | rfl := only a ⟨t, there, opened⟩
      · refine ⟨3, by decide +kernel, by decide +kernel, ?_⟩
        intro other there differs
        obtain rfl | rfl := only other there
        · exact absurd rfl differs
        · decide +kernel
      · refine ⟨6, by decide +kernel, by decide +kernel, ?_⟩
        intro other there differs
        obtain rfl | rfl := only other there
        · decide +kernel
        · exact absurd rfl differs
    · exact leads "1" (by decide +kernel)
    · exact leads "2" (by decide +kernel)
  exact absurd same (by decide)

end McManager.StreamClient
