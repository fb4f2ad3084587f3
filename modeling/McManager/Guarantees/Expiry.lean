import McManager.Guarantees.Streams

namespace McManager.Realtime

open Web

theorem frames_append (before after : List Take) :
    frames (before ++ after) =
      if (frames before).2 then frames before
      else ((frames before).1 ++ (frames after).1, (frames after).2) := by
  induction before with
  | nil => rfl
  | cons t before ih =>
    simp only [List.cons_append, frames]
    by_cases ends : (round t.closed t.due t.expired t.item).2 = true
    · simp [ends]
    · rw [ih]
      by_cases ended : (frames before).2 = true
      · simp [ends, ended]
      · simp [ends, ended]

/-- The text of an event with the name of the shutdown event has the mark. -/
theorem shutdown_marked (e : StreamEvent) (named : e.event = "manager.shutdown") :
    contains e.encode shutdownMark = true := by
  have split : e.encode.toList = ("id: " ++ toString e.sequence ++ "\n").toList ++
      shutdownMark.toList ++ ("\ndata: " ++ dumps (.obj e.data) ++ "\n\n").toList := by
    have mark : shutdownMark = "event: " ++ "manager.shutdown" := by decide
    have line : "\nevent: " = "\n" ++ "event: " := by decide
    rw [StreamEvent.encode, named, mark, line]
    simp only [String.toList_append, List.append_assoc]
  have inside : shutdownMark.toList <:+: e.encode.toList := by
    rw [split]
    exact ⟨_, _, rfl⟩
  exact decide_eq_true inside

/-- A round that hands on a frame with the mark, whatever the session. -/
def Take.passes (t : Take) : Bool :=
  t.item.any fun
    | .frame e => contains e.encode shutdownMark
    | .stop => false

theorem passes_frame (e : StreamEvent) (closed due expired : Bool) :
    Take.passes ⟨some (.frame e), closed, due, expired⟩ = contains e.encode shutdownMark := by
  simp only [Take.passes, Option.any_some]

/-- The subscriber was not closed when this round began. -/
def Take.running (t : Take) : Prop :=
  match t.item with
  | some (.frame _) => True
  | some .stop => False
  | none => t.closed = false

/-- Up to the first round without the mark every frame is a shutdown event, and in that round the
subscriber is not closed. -/
def Clear (after : List Take) : Prop :=
  (∀ t ∈ after.takeWhile Take.passes, ∀ e, t.item = some (.frame e) →
    e.event = "manager.shutdown") ∧
    ∀ t ∈ (after.dropWhile Take.passes).head?, t.running

/-- From here on the loop yields shutdown events only, then the frame that says the session has
expired, and ends. -/
def Expires (r : List Output × Bool) : Prop :=
  r.2 = true ∧ ∃ out : List Output, r.1 = out ++ [.expired] ∧
    ∀ o ∈ out, ∃ e, o = .frame e ∧ e.event = "manager.shutdown"

theorem expires_cons {e : StreamEvent} {r : List Output × Bool} :
    Expires (.frame e :: r.1, r.2) ↔ e.event = "manager.shutdown" ∧ Expires r := by
  constructor
  · intro h
    obtain ⟨ended, out, yields, only⟩ := h
    dsimp only at ended yields
    cases out with
    | nil => cases yields
    | cons o out =>
      obtain ⟨rfl, later⟩ := List.cons.inj yields
      obtain ⟨e', same, named⟩ := only (.frame e) (List.mem_cons_self ..)
      obtain rfl : e = e' := Output.frame.inj same
      exact ⟨named, ended, out, later, fun o ho => only o (List.mem_cons_of_mem _ ho)⟩
  · intro h
    obtain ⟨named, ended, out, yields, only⟩ := h
    refine ⟨ended, .frame e :: out, congrArg (Output.frame e :: ·) yields, ?_⟩
    intro o ho
    obtain rfl | ho := List.mem_cons.mp ho
    · exact ⟨e, rfl, named⟩
    · exact only o ho

theorem clear_cons_of_pos {t : Take} (passes : t.passes = true) (after : List Take) :
    Clear (t :: after) ↔
      (∀ e, t.item = some (.frame e) → e.event = "manager.shutdown") ∧ Clear after := by
  rw [Clear, Clear, List.takeWhile_cons_of_pos passes, List.dropWhile_cons_of_pos passes,
    List.forall_mem_cons, and_assoc]

theorem clear_cons_of_neg {t : Take} (stops : ¬t.passes = true) (after : List Take) :
    Clear (t :: after) ↔ t.running := by
  rw [Clear, List.takeWhile_cons_of_neg stops, List.dropWhile_cons_of_neg stops]
  simp

theorem frames_clear (after : List Take) (off : ∀ t ∈ after, t.expired = true)
    (quiet : ∃ t ∈ after, t.item = none) : Expires (frames after) ↔ Clear after := by
  induction after with
  | nil =>
    obtain ⟨t, ht, -⟩ := quiet
    cases ht
  | cons t after ih =>
    have expired : t.expired = true := off t (List.mem_cons_self ..)
    have later := ih fun s hs => off s (List.mem_cons_of_mem _ hs)
    obtain ⟨item, closed, due, _⟩ := t
    obtain rfl := expired
    match item with
    | some (.frame e) =>
      by_cases mark : contains e.encode shutdownMark = true
      · -- The frame is yielded, and the loop goes on.
        have waits : ∃ s ∈ after, s.item = none := by
          obtain ⟨s, hs, runsOut⟩ := quiet
          obtain rfl | hs := List.mem_cons.mp hs
          · cases runsOut
          · exact ⟨s, hs, runsOut⟩
        have passes := (passes_frame e closed due true).trans mark
        have yields : frames (⟨some (.frame e), closed, due, true⟩ :: after) =
            (.frame e :: (frames after).1, (frames after).2) := by
          simp [frames, round, mark]
        rw [yields, expires_cons, later waits, clear_cons_of_pos passes]
        apply and_congr_left
        intro _
        constructor
        · intro named e' same
          cases same
          exact named
        · intro named
          exact named e rfl
      · have passes : ¬Take.passes ⟨some (.frame e), closed, due, true⟩ = true := by
          rwa [passes_frame]
        have yields : frames (⟨some (.frame e), closed, due, true⟩ :: after) =
            ([.expired], true) := by
          simp [frames, round, mark]
        rw [yields, clear_cons_of_neg passes]
        exact iff_of_true ⟨rfl, [], rfl, fun o ho => absurd ho List.not_mem_nil⟩ trivial
    | some .stop =>
      have passes : ¬Take.passes ⟨some .stop, closed, due, true⟩ = true := Bool.false_ne_true
      rw [clear_cons_of_neg passes]
      apply iff_of_false
      · intro h
        obtain ⟨-, out, yields, -⟩ := h
        cases out <;> cases yields
      · exact id
    | none =>
      have passes : ¬Take.passes ⟨none, closed, due, true⟩ = true := Bool.false_ne_true
      rw [clear_cons_of_neg passes]
      cases closed with
      | true =>
        apply iff_of_false
        · intro h
          obtain ⟨-, out, yields, -⟩ := h
          cases out <;> cases yields
        · exact Bool.noConfusion
      | false => exact iff_of_true ⟨rfl, [], rfl, fun o ho => absurd ho List.not_mem_nil⟩ rfl

/-- From the point on where the session has expired a running loop yields shutdown events only,
then the frame that says so, and ends, exactly when every frame it takes before the first one
without the mark is a shutdown event and the subscriber is not closed by then. -/
theorem expired_stream_ends (before after : List Take) (going : (frames before).2 = false)
    (off : ∀ t ∈ after, t.expired = true) (quiet : ∃ t ∈ after, t.item = none) :
    (∃ out, (frames (before ++ after)).1 = (frames before).1 ++ out ∧
      Expires (out, (frames (before ++ after)).2)) ↔ Clear after := by
  rw [← frames_clear after off quiet, frames_append, if_neg (Bool.eq_false_iff.mp going)]
  constructor
  · intro h
    obtain ⟨out, yields, expires⟩ := h
    obtain rfl : (frames after).1 = out := List.append_cancel_left yields
    exact expires
  · intro expires
    exact ⟨_, rfl, expires⟩

/-- A world event that waits when the session expires is not yielded. -/
theorem waiting_event_withheld :
    ∃ out, (frames ([] ++ [⟨some (.frame ⟨1, "world.state", []⟩), false, false, true⟩,
        ⟨none, false, false, true⟩])).1 = (frames []).1 ++ out ∧
      Expires (out, (frames ([] ++ [⟨some (.frame ⟨1, "world.state", []⟩), false, false, true⟩,
        ⟨none, false, false, true⟩])).2) := by
  apply (expired_stream_ends [] _ rfl _ _).mpr
  · have passes : ¬Take.passes ⟨some (.frame ⟨1, "world.state", []⟩), false, false, true⟩ =
        true := by decide +kernel
    exact (clear_cons_of_neg passes _).mpr trivial
  · simp
  · exact ⟨_, List.mem_cons_of_mem _ (List.mem_singleton_self _), rfl⟩

/-- A log line with the mark in it is yielded although the session has expired. -/
theorem log_line_passes :
    ¬∀ before after : List Take, (frames before).2 = false → (∀ t ∈ after, t.expired = true) →
      (∀ t ∈ after, t.running) → (∃ t ∈ after, t.item = none) →
        ∃ out, (frames (before ++ after)).1 = (frames before).1 ++ out ∧
          Expires (out, (frames (before ++ after)).2) := by
  intro claim
  let line : StreamEvent := ⟨1, "log.line", [("line", .str "event: manager.shutdown")]⟩
  obtain ⟨out, yields, expires⟩ := claim []
    [⟨some (.frame line), false, false, true⟩, ⟨none, false, false, true⟩] rfl (by simp)
    (by simp [Take.running]) ⟨_, List.mem_cons_of_mem _ (List.mem_singleton_self _), rfl⟩
  have mark : contains line.encode shutdownMark = true := by decide +kernel
  have given : (frames [⟨some (.frame line), false, false, true⟩,
      ⟨none, false, false, true⟩]).1 = [.frame line, .expired] := by
    simp [frames, round, mark]
  have start : (frames []).1 = [] := rfl
  rw [List.nil_append, given, start, List.nil_append] at yields
  subst yields
  obtain ⟨-, sent, same, only⟩ := expires
  have first : Output.frame line ∈ sent := by
    cases sent with
    | nil => cases same
    | cons o sent =>
      obtain ⟨rfl, -⟩ := List.cons.inj same
      exact List.mem_cons_self ..
  obtain ⟨e, here, named⟩ := only (.frame line) first
  obtain rfl : line = e := Output.frame.inj here
  exact absurd named (by decide)

/-- What the loop of a client goes by in this move, if it makes a round. -/
def Hub.take? (h : Hub) (i : Nat) : Move → Option Take
  | .answer j due expired =>
    if i = j then
      match h.clients[i]? with
      | none => none
      | some c =>
        match c.ended, c.got with
        | false, some item => some ⟨item, c.subscriber.closed, due, expired⟩
        | _, _ => none
    else none
  | _ => none

/-- The rounds that the loop of a client makes. -/
def Hub.takes (h : Hub) (i : Nat) : List Move → List Take
  | [] => []
  | m :: moves => (h.take? i m).toList ++ (h.step m).takes i moves

/-- What a client has been given, and whether its loop has ended. -/
def Client.progress (c : Client) : List Output × Bool := (c.yielded, c.ended)

section Rounds

variable {h : Hub} {i : Nat} {c : Client}

theorem progress_onClients (hc : h.clients[i]? = some c) {p : Nat → Client → Bool}
    {f : Nat → Client → Client} (kept : ∀ i c, (f i c).progress = c.progress) :
    ∃ c', (h.onClients p f)[i]? = some c' ∧ c'.progress = c.progress := by
  rw [Hub.onClients, List.getElem?_mapIdx, hc]
  refine ⟨_, rfl, ?_⟩
  dsimp only
  split
  · exact kept i c
  · rfl

theorem progress_set (hc : h.clients[i]? = some c) {j : Nat} {d d' : Client}
    (hd : h.clients[j]? = some d) (kept : d'.progress = d.progress) :
    ∃ c', (h.clients.set j d')[i]? = some c' ∧ c'.progress = c.progress := by
  by_cases same : j = i
  · subst same
    obtain rfl : d = c := Option.some.inj (hd.symm.trans hc)
    exact ⟨d', by rw [List.getElem?_set_self (List.getElem?_eq_some_iff.mp hd).1], kept⟩
  · exact ⟨c, by rw [List.getElem?_set_ne same, hc], rfl⟩

/-- A move that is no round of a client leaves what the client was given as it is. -/
theorem step_waits (hc : h.clients[i]? = some c) {m : Move} (waits : h.take? i m = none) :
    ∃ c', (h.step m).clients[i]? = some c' ∧ c'.progress = c.progress := by
  cases m with
  | publish stream event data taken => exact progress_onClients hc fun _ _ => rfl
  | subscribe stream lastEventId =>
    have low : i < h.clients.length := (List.getElem?_eq_some_iff.mp hc).1
    exact ⟨c, by rw [Hub.step, Hub.subscribe, List.getElem?_append_left low, hc], rfl⟩
  | unsubscribe j taken =>
    rw [Hub.step, Hub.unsubscribe]
    cases hd : h.clients[j]? with
    | none => exact ⟨c, hc, rfl⟩
    | some d => exact progress_set hc hd rfl
  | shutdown taken =>
    rw [Hub.step, Hub.shutdown]
    split
    · exact ⟨c, hc, rfl⟩
    · exact progress_onClients hc fun _ _ => rfl
  | get j =>
    rw [Hub.step, Hub.get]
    cases hd : h.clients[j]? with
    | none => exact ⟨c, hc, rfl⟩
    | some d =>
      dsimp only
      split
      · exact ⟨c, hc, rfl⟩
      · exact progress_set hc hd rfl
  | answer j due expired =>
    rw [Hub.step, Hub.answer]
    cases hd : h.clients[j]? with
    | none => exact ⟨c, hc, rfl⟩
    | some d =>
      dsimp only
      split
      · rename_i item going got
        by_cases same : i = j
        · subst same
          simp [Hub.take?, hd, going, got] at waits
        · exact ⟨c, by rw [List.getElem?_set_ne (Ne.symm same), hc], rfl⟩
      · exact ⟨c, hc, rfl⟩

theorem step_round (hc : h.clients[i]? = some c) {m : Move} {t : Take}
    (goes : h.take? i m = some t) :
    c.ended = false ∧ ∃ c', (h.step m).clients[i]? = some c' ∧
      c'.progress = (c.yielded ++ (round t.closed t.due t.expired t.item).1,
        (round t.closed t.due t.expired t.item).2) := by
  cases m with
  | answer j due expired =>
    by_cases same : i = j
    · subst same
      rw [Hub.step, Hub.answer, hc]
      have there : i < h.clients.length := (List.getElem?_eq_some_iff.mp hc).1
      simp only [Hub.take?, if_true, hc] at goes
      dsimp only
      cases going : c.ended with
      | true => simp [going] at goes
      | false =>
        cases got : c.got with
        | none => simp [going, got] at goes
        | some item =>
          rw [going, got] at goes
          obtain rfl := Option.some.inj goes
          exact ⟨rfl, _, List.getElem?_set_self there, rfl⟩
    · simp [Hub.take?, same] at goes
  | publish stream event data taken => cases goes
  | subscribe stream lastEventId => cases goes
  | unsubscribe j taken => cases goes
  | shutdown taken => cases goes
  | get j => cases goes

/-- What a run gives a client is what its loop yields for the rounds that it makes. -/
theorem run_frames (hc : h.clients[i]? = some c) (moves : List Move) :
    ∃ c', (h.run moves).clients[i]? = some c' ∧
      c'.progress = if c.ended then c.progress
        else (c.yielded ++ (frames (h.takes i moves)).1, (frames (h.takes i moves)).2) := by
  induction moves generalizing h c with
  | nil =>
    refine ⟨c, hc, ?_⟩
    cases ended : c.ended with
    | true => rfl
    | false => simp [Hub.takes, frames, Client.progress, ended]
  | cons m moves ih =>
    cases goes : h.take? i m with
    | none =>
      obtain ⟨c₁, hc₁, same⟩ := step_waits hc goes
      obtain ⟨c', hc', progress⟩ := ih hc₁
      obtain ⟨yielded, ended⟩ := Prod.mk.inj same
      refine ⟨c', hc', ?_⟩
      rw [progress, same, yielded, ended, Hub.takes, goes]
      rfl
    | some t =>
      obtain ⟨going, c₁, hc₁, moved⟩ := step_round hc goes
      obtain ⟨c', hc', progress⟩ := ih hc₁
      obtain ⟨yielded, ended⟩ := Prod.mk.inj moved
      refine ⟨c', hc', ?_⟩
      rw [progress, going, moved, yielded, ended, Hub.takes, goes]
      cases stops : (round t.closed t.due t.expired t.item).2 with
      | true => simp [frames, stops]
      | false => simp [frames, stops]

/-- The same of a client of a hub, in any run after any run. -/
theorem expired_client_ends (moves : List Move) (hc : h.clients[i]? = some c)
    (going : c.ended = false) (off : ∀ t ∈ h.takes i moves, t.expired = true)
    (quiet : ∃ t ∈ h.takes i moves, t.item = none) :
    ∃ c', (h.run moves).clients[i]? = some c' ∧
      ((∃ out, c'.yielded = c.yielded ++ out ∧ Expires (out, c'.ended)) ↔
        Clear (h.takes i moves)) := by
  obtain ⟨c', hc', progress⟩ := run_frames hc moves
  rw [going, if_neg Bool.false_ne_true] at progress
  obtain ⟨yielded, ended⟩ := Prod.mk.inj progress
  refine ⟨c', hc', ?_⟩
  rw [← frames_clear _ off quiet, yielded, ended]
  constructor
  · intro ends
    obtain ⟨out, same, expires⟩ := ends
    obtain rfl := List.append_cancel_left same
    exact expires
  · intro expires
    exact ⟨_, rfl, expires⟩

end Rounds

end McManager.Realtime
