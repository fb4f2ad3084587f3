import Mathlib.Data.List.Induction
import Mathlib.Data.List.Nodup
import Mathlib.Tactic.Common

namespace McManager.Framework

variable {α β γ δ : Type*} [DecidableEq α] [DecidableEq γ]

/-- The value that the last definition of a name gives it. -/
def latest (definitions : List (γ × δ)) (name : γ) : Option δ :=
  (definitions.reverse.find? (·.1 == name)).map (·.2)

/-- The only row with a key is the first one. -/
theorem find?_of_nodup {key : β → α} {rows : List β} (distinct : (rows.map key).Nodup) {x : β}
    (mem : x ∈ rows) : rows.find? (fun y => decide (key y = key x)) = some x := by
  cases found : rows.find? fun y => decide (key y = key x) with
  | none =>
    have missing := List.find?_eq_none.mp found x mem
    simp at missing
  | some y =>
    have same : key y = key x := by simpa using List.find?_some found
    rw [List.inj_on_of_nodup_map distinct (List.mem_of_find?_eq_some found) mem same]

namespace OrderedDict

/-- `d[key] = value`: in its place, or else at the end. -/
def set (d : List (α × β)) (key : α) (value : β) : List (α × β) :=
  if d.any (·.1 == key) then d.map fun e => if e.1 = key then (key, value) else e
  else d ++ [(key, value)]

/-- What one definition after the other makes of an empty dictionary. -/
def ofList (definitions : List (α × β)) : List (α × β) :=
  definitions.foldl (fun d e => set d e.1 e.2) []

variable {d : List (α × β)} {key : α} {value : β}

theorem ofList_concat (definitions : List (α × β)) (e : α × β) :
    ofList (definitions ++ [e]) = set (ofList definitions) e.1 e.2 := by
  rw [ofList, List.foldl_append]
  rfl

theorem set_absent (h : ∀ e ∈ d, e.1 ≠ key) : set d key value = d ++ [(key, value)] := by
  rw [set, if_neg]
  rw [List.any_eq_true]
  rintro ⟨e, mem, same⟩
  exact h e mem (by simpa using same)

theorem set_present {front back : List (α × β)} {old : β} (h : ∀ e ∈ front, e.1 ≠ key)
    (h' : ∀ e ∈ back, e.1 ≠ key) :
    set (front ++ (key, old) :: back) key value = front ++ (key, value) :: back := by
  have kept : ∀ es : List (α × β), (∀ e ∈ es, e.1 ≠ key) →
      es.map (fun e => if e.1 = key then (key, value) else e) = es := by
    intro es other
    calc es.map (fun e => if e.1 = key then (key, value) else e)
        = es.map id := List.map_congr_left fun e mem => if_neg (other e mem)
      _ = es := List.map_id es
  rw [set, if_pos (by simp), List.map_append, List.map_cons, kept front h, kept back h', if_pos rfl]

/-- Each name once. -/
def Unique (d : List (α × β)) : Prop := d.Pairwise fun a b => a.1 ≠ b.1

theorem mem_set {e : α × β} (mem : e ∈ set d key value) :
    e = (key, value) ∨ e ∈ d ∧ e.1 ≠ key := by
  rw [set] at mem
  split_ifs at mem with present
  · obtain ⟨old, inside, same⟩ := List.mem_map.mp mem
    split_ifs at same with there
    · exact .inl same.symm
    · subst same
      exact .inr ⟨inside, there⟩
  · rcases List.mem_append.mp mem with inside | last
    · refine .inr ⟨inside, fun same => present ?_⟩
      rw [List.any_eq_true]
      exact ⟨e, inside, by simpa using same⟩
    · exact .inl (List.mem_singleton.mp last)

theorem unique_set (h : Unique d) : Unique (set d key value) := by
  rw [set]
  split_ifs with present
  · rw [Unique, List.pairwise_map]
    have same : ∀ e : α × β, (if e.1 = key then (key, value) else e).1 = e.1 := by
      intro e
      split_ifs with there
      · exact there.symm
      · rfl
    exact h.imp fun other => by rwa [same, same]
  · rw [Unique, List.pairwise_append]
    refine ⟨h, List.pairwise_singleton _ _, ?_⟩
    intro a mem b last same
    rw [List.mem_singleton] at last
    subst last
    apply present
    rw [List.any_eq_true]
    exact ⟨a, mem, by simpa using same⟩

theorem unique_ofList (definitions : List (α × β)) : Unique (ofList definitions) := by
  induction definitions using List.reverseRecOn with
  | nil => exact List.Pairwise.nil
  | append_singleton definitions e ih =>
    rw [ofList_concat]
    exact unique_set ih

theorem mem_ofList {definitions : List (α × β)} {e : α × β} (mem : e ∈ ofList definitions) :
    e ∈ definitions := by
  induction definitions using List.reverseRecOn with
  | nil => exact mem
  | append_singleton definitions last ih =>
    rw [ofList_concat] at mem
    rcases mem_set mem with rfl | ⟨inside, -⟩
    · exact List.mem_append_right _ List.mem_cons_self
    · exact List.mem_append_left _ (ih inside)

/-- A dictionary is what its own entries make. -/
theorem ofList_unique (h : Unique d) : ofList d = d := by
  induction d using List.reverseRecOn with
  | nil => rfl
  | append_singleton d e ih =>
    rw [Unique, List.pairwise_append] at h
    rw [ofList_concat, ih h.1, set_absent]
    intro a mem
    exact h.2.2 a mem e List.mem_cons_self

theorem set_same (h : Unique d) (mem : (key, value) ∈ d) : set d key value = d := by
  obtain ⟨front, back, rfl⟩ := List.append_of_mem mem
  rw [Unique, List.pairwise_append, List.pairwise_cons] at h
  exact set_present (fun e inside => h.2.2 e inside _ List.mem_cons_self)
    fun e inside => (h.2.1.1 e inside).symm

theorem mem_set_self : (key, value) ∈ set d key value := by
  rw [set]
  split_ifs with present
  · rw [List.any_eq_true] at present
    obtain ⟨e, mem, same⟩ := present
    exact List.mem_map.mpr ⟨e, mem, if_pos (by simpa using same)⟩
  · exact List.mem_append_right _ List.mem_cons_self

theorem mem_set_of_ne {e : α × β} (mem : e ∈ d) (other : e.1 ≠ key) : e ∈ set d key value := by
  rw [set]
  split_ifs with present
  · exact List.mem_map.mpr ⟨e, mem, if_neg other⟩
  · exact List.mem_append_left _ mem

/-! A reader takes the entries for definitions of names of its own. -/

section

variable {reads : α × β → Option (γ × δ)}

theorem latest_append (xs ys : List (γ × δ)) (name : γ) :
    latest (xs ++ ys) name = (latest ys name).or (latest xs name) := by
  rw [latest, List.reverse_append, List.find?_append, latest, latest]
  cases ys.reverse.find? (·.1 == name) <;> rfl

theorem latest_none {xs : List (γ × δ)} {name : γ} (h : ∀ x ∈ xs, x.1 ≠ name) :
    latest xs name = none := by
  rw [latest, Option.map_eq_none_iff, List.find?_eq_none]
  intro x mem same
  exact h x (List.mem_reverse.mp mem) (by simpa using same)

theorem latest_single (x : γ × δ) (name : γ) :
    latest [x] name = if x.1 = name then some x.2 else none := by
  rw [latest, List.reverse_singleton, List.find?_singleton]
  split_ifs with there other <;> simp_all

/-- One definition more, and the entry it makes or changes. -/
theorem latest_set {e : α × β} (unique : Unique d)
    (spelled : ∀ a ∈ d, ∀ x ∈ reads a, ∀ y ∈ reads e, x.1 = y.1 → a.1 = e.1)
    (alike : ∀ a ∈ d, a.1 = e.1 → (reads a).map (·.1) = (reads e).map (·.1)) (name : γ) :
    latest ((set d e.1 e.2).filterMap reads) name =
      latest (d.filterMap reads ++ [e].filterMap reads) name := by
  obtain ⟨key, value⟩ := e
  by_cases present : ∃ old, (key, old) ∈ d
  · obtain ⟨old, mem⟩ := present
    have known := alike _ mem rfl
    obtain ⟨front, back, rfl⟩ := List.append_of_mem mem
    rw [Unique, List.pairwise_append, List.pairwise_cons] at unique
    have before : ∀ a ∈ front, a.1 ≠ key := fun a inside =>
      unique.2.2 a inside _ List.mem_cons_self
    have after : ∀ a ∈ back, a.1 ≠ key := fun a inside => (unique.2.1.1 a inside).symm
    have others : ∀ es : List (α × β), (∀ a ∈ es, a ∈ front ++ (key, old) :: back) →
        (∀ a ∈ es, a.1 ≠ key) → ∀ y ∈ reads (key, value),
        latest (es.filterMap reads) y.1 = none := by
      intro es inside other y read
      apply latest_none
      intro x found same
      obtain ⟨a, there, made⟩ := List.mem_filterMap.mp found
      exact other a there (spelled a (inside a there) x made y read same)
    have first := others front (fun a inside => List.mem_append_left _ inside) before
    have rest := others back
      (fun a inside => List.mem_append_right _ (List.mem_cons_of_mem _ inside)) after
    rw [set_present before after, List.filterMap_append, List.filterMap_append]
    cases made : reads (key, value) with
    | none =>
      rw [made] at known
      have none' : reads (key, old) = none := by simpa using known
      rw [List.filterMap_cons_none made, List.filterMap_cons_none none',
        List.filterMap_cons_none made, List.filterMap_nil, List.append_nil]
    | some y =>
      rw [made] at known
      obtain ⟨x, made', same⟩ : ∃ x, reads (key, old) = some x ∧ x.1 = y.1 := by
        simpa using known
      rw [List.filterMap_cons_some made, List.filterMap_cons_some made',
        List.filterMap_cons_some made, List.filterMap_nil, ← List.singleton_append,
        ← List.singleton_append (l := back.filterMap reads), latest_append, latest_append,
        latest_append, latest_append, latest_append, latest_single, latest_single, same]
      split_ifs with there
      · subst there
        rw [first y made, rest y made]
        rfl
      · rfl
  · have absent : ∀ a ∈ d, a.1 ≠ key := by
      rintro ⟨k, old⟩ mem rfl
      exact present ⟨old, mem⟩
    rw [set_absent absent, List.filterMap_append]

theorem latest_ofList {definitions : List (α × β)}
    (spelled : ∀ a ∈ definitions, ∀ b ∈ definitions, ∀ x ∈ reads a, ∀ y ∈ reads b,
      x.1 = y.1 → a.1 = b.1)
    (alike : ∀ a ∈ definitions, ∀ b ∈ definitions, a.1 = b.1 →
      (reads a).map (·.1) = (reads b).map (·.1)) (name : γ) :
    latest ((ofList definitions).filterMap reads) name =
      latest (definitions.filterMap reads) name := by
  induction definitions using List.reverseRecOn with
  | nil => rfl
  | append_singleton definitions e ih =>
    have front : ∀ {a}, a ∈ definitions → a ∈ definitions ++ [e] :=
      fun mem => List.mem_append_left _ mem
    have last : e ∈ definitions ++ [e] := List.mem_append_right _ List.mem_cons_self
    rw [ofList_concat, latest_set (unique_ofList definitions), latest_append, ih, ← latest_append,
      List.filterMap_append]
    · exact fun a mem b mem' => spelled a (front mem) b (front mem')
    · exact fun a mem b mem' => alike a (front mem) b (front mem')
    · exact fun a mem => spelled a (front (mem_ofList mem)) e last
    · exact fun a mem => alike a (front (mem_ofList mem)) e last

end

end OrderedDict

end McManager.Framework
