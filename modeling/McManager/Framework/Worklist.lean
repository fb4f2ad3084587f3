import Mathlib.Data.Multiset.Bind
import Mathlib.Tactic.Common

namespace McManager.Framework

/-- What a worklist goes through: the items of a node and the node that an item leads to, if it
leads to one. No chain of nodes is endless. -/
structure Forest (α β : Type) where
  items : α → List β
  child : α → β → Option α
  rank : α → Nat
  lower : ∀ a b c, b ∈ items a → child a b = some c → rank c < rank a

namespace Forest

variable {α β : Type} (F : Forest α β)

/-- The nodes that the items of a node lead to. -/
def children (a : α) : List α := (F.items a).filterMap (F.child a)

/-- A worklist, the last node first: the items it goes through, each with its node. -/
def trail : Nat → List α → Option (List (α × β))
  | 0, _ => none
  | _ + 1, [] => some []
  | fuel + 1, a :: rest =>
    (trail fuel ((F.children a).reverse ++ rest)).map ((F.items a).map (a, ·) ++ ·)

/-- What lies below a node, so many levels down. -/
def level : Nat → α → Multiset (α × β)
  | 0, _ => 0
  | n + 1, a => ((F.items a).map (a, ·) : List (α × β)) + (F.children a : Multiset α).bind (level n)

/-- What lies below a node. -/
def below (a : α) : Multiset (α × β) := F.level (F.rank a + 1) a

/-- The way down from a node to another one. -/
inductive Leads : α → List β → α → Prop
  | here (a : α) : Leads a [] a
  | down {a c d : α} {b : β} {path : List β} (mem : b ∈ F.items a) (child : F.child a b = some c)
      (rest : Leads c path d) : Leads a (b :: path) d

variable {F}

theorem mem_children {a c : α} :
    c ∈ F.children a ↔ ∃ b ∈ F.items a, F.child a b = some c := List.mem_filterMap

theorem rank_children {a c : α} (h : c ∈ F.children a) : F.rank c < F.rank a := by
  obtain ⟨b, mem, child⟩ := mem_children.mp h
  exact F.lower a b c mem child

/-- Below the rank of a node there is nothing more. -/
theorem level_eq {n m : Nat} {a : α} (hn : F.rank a < n) (hm : F.rank a < m) :
    F.level n a = F.level m a := by
  induction n generalizing m a with
  | zero => omega
  | succ n ih =>
    cases m with
    | zero => omega
    | succ m =>
      have same : (F.children a : Multiset α).bind (F.level n) =
          (F.children a : Multiset α).bind (F.level m) := by
        apply Multiset.bind_congr
        intro c mem
        have lower := rank_children (Multiset.mem_coe.mp mem)
        apply ih
        · omega
        · omega
      rw [level, level, same]

theorem below_eq (a : α) : F.below a =
    ((F.items a).map (a, ·) : List (α × β)) + (F.children a : Multiset α).bind F.below := by
  have same : (F.children a : Multiset α).bind (F.level (F.rank a)) =
      (F.children a : Multiset α).bind F.below := by
    apply Multiset.bind_congr
    intro c mem
    have lower := rank_children (Multiset.mem_coe.mp mem)
    apply level_eq
    · exact lower
    · omega
  rw [below, level, same]

/-- A worklist goes through everything below its nodes, each item once. -/
theorem trail_below {fuel : Nat} {pending : List α} {t : List (α × β)}
    (h : F.trail fuel pending = some t) : (t : Multiset (α × β)) = (pending : Multiset α).bind F.below := by
  induction fuel generalizing pending t with
  | zero => cases h
  | succ fuel ih =>
    cases pending with
    | nil => cases h; rfl
    | cons a rest =>
      obtain ⟨t', rest', rfl⟩ := Option.map_eq_some_iff.mp h
      have below := ih rest'
      rw [← Multiset.coe_add, Multiset.coe_reverse, Multiset.add_bind] at below
      rw [← Multiset.coe_add, below, ← Multiset.cons_coe, Multiset.cons_bind, below_eq, add_assoc]

/-- A worklist comes to its end. -/
theorem trail_ends (pending : List α) : ∃ fuel t, F.trail fuel pending = some t := by
  have add : ∀ n (a : α), F.rank a < n → ∀ rest, (∃ fuel t, F.trail fuel rest = some t) →
      ∃ fuel t, F.trail fuel (a :: rest) = some t := by
    intro n
    induction n with
    | zero => exact fun a low => absurd low (Nat.not_lt_zero _)
    | succ n ih =>
      intro a low rest done
      -- The children are added one after another to a list that comes to its end.
      have more : ∀ l : List α, (∀ c ∈ l, F.rank c < n) →
          ∃ fuel t, F.trail fuel (l ++ rest) = some t := by
        intro l
        induction l with
        | nil => exact fun _ => done
        | cons c l ihl =>
          intro all
          have rest' := ihl fun c' mem => all c' (List.mem_cons_of_mem _ mem)
          exact ih c (all c List.mem_cons_self) _ rest'
      have lower : ∀ c ∈ (F.children a).reverse, F.rank c < n := by
        intro c mem
        have lower := rank_children (List.mem_reverse.mp mem)
        omega
      obtain ⟨fuel, t, done'⟩ := more _ lower
      exact ⟨fuel + 1, (F.items a).map (a, ·) ++ t, by rw [trail, done']; rfl⟩
  induction pending with
  | nil => exact ⟨1, [], rfl⟩
  | cons a rest ih => exact add (F.rank a + 1) a (Nat.lt_succ_self _) rest ih

/-- An item is below a node if and only if a way leads down to its own node. -/
theorem mem_below {a a' : α} {b : β} :
    (a', b) ∈ F.below a ↔ ∃ path, F.Leads a path a' ∧ b ∈ F.items a' := by
  constructor
  · intro mem
    generalize rank : F.rank a = n at mem
    induction n using Nat.strong_induction_on generalizing a with
    | _ n ih =>
      rw [below_eq, Multiset.mem_add, Multiset.mem_coe, List.mem_map] at mem
      rcases mem with ⟨b', mem, same⟩ | mem
      · cases same
        exact ⟨[], .here _, mem⟩
      · obtain ⟨c, child, mem⟩ := Multiset.mem_bind.mp mem
        rw [Multiset.mem_coe] at child
        obtain ⟨path, leads, mem'⟩ := ih (F.rank c) (rank ▸ rank_children child) mem rfl
        obtain ⟨b', mem'', child'⟩ := mem_children.mp child
        exact ⟨b' :: path, .down mem'' child' leads, mem'⟩
  · rintro ⟨path, leads, mem⟩
    induction leads with
    | here a =>
      rw [below_eq, Multiset.mem_add]
      exact .inl (Multiset.mem_coe.mpr (List.mem_map.mpr ⟨b, mem, rfl⟩))
    | @down a c d b' path mem' child rest ih =>
      rw [below_eq, Multiset.mem_add]
      have inside : c ∈ F.children a := mem_children.mpr ⟨b', mem', child⟩
      exact .inr (Multiset.mem_bind.mpr ⟨c, Multiset.mem_coe.mpr inside, ih mem⟩)

/-- Two worklists that take the items of each node in different orders go through the same ones. -/
theorem trail_perm {G : Forest α β} (child : G.child = F.child) (items : ∀ a, (G.items a).Perm (F.items a))
    {fuel fuel' : Nat} {pending : List α} {t t' : List (α × β)}
    (h : F.trail fuel pending = some t) (h' : G.trail fuel' pending = some t') : t'.Perm t := by
  have levels : ∀ n a, G.level n a = F.level n a := by
    intro n
    induction n with
    | zero => exact fun _ => rfl
    | succ n ih =>
      intro a
      have children : (G.children a).Perm (F.children a) := by
        rw [Forest.children, child]
        exact (items a).filterMap _
      have same : G.level n = F.level n := funext ih
      rw [level, level, same, Multiset.coe_eq_coe.mpr children,
        Multiset.coe_eq_coe.mpr ((items a).map (a, ·))]
  have belows : G.below = F.below := by
    funext a
    have deep : F.rank a < F.rank a + G.rank a + 1 ∧ G.rank a < F.rank a + G.rank a + 1 := by
      constructor
      · omega
      · omega
    rw [below, level_eq (Nat.lt_succ_self _) deep.2, levels, below,
      level_eq (Nat.lt_succ_self _) deep.1]
  apply Multiset.coe_eq_coe.mp
  rw [trail_below h, trail_below h', belows]

end Forest

end McManager.Framework
