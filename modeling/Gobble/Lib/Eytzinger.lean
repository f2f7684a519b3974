import Mathlib.Algebra.Group.Nat.Defs
import Mathlib.Data.List.Nodup
import Mathlib.Data.List.Perm.Basic
import Mathlib.Tactic.Common

/-!
# Eytzinger — search trees stored in level order

A tree with `n` nodes is stored level by level: the children of node `k` are the nodes `2 k + 1` and
`2 k + 2`, if they exist.  Filling the nodes in order from left to right with a sorted list makes it a
search tree.  A search goes down from the root without ever stopping early; numbered from one, the
node it arrives at spells out its turns in binary, and the last right turn is where the answer is.
-/

namespace Gobble
namespace Lib
namespace Eytzinger

/-! ## The nodes from left to right -/

/-- The nodes below `node`, itself included, from left to right. -/
def inOrder (n node : Nat) : List Nat :=
  if node < n then inOrder n (2 * node + 1) ++ node :: inOrder n (2 * node + 2) else []
termination_by n - node

theorem inOrder_of_lt {n node : Nat} (h : node < n) :
    inOrder n node = inOrder n (2 * node + 1) ++ node :: inOrder n (2 * node + 2) := by
  rw [inOrder, if_pos h]

theorem inOrder_of_le {n node : Nat} (h : n ≤ node) : inOrder n node = [] := by
  rw [inOrder, if_neg (Nat.not_lt.mpr h)]

theorem lt_of_mem_inOrder {n node k : Nat} (h : k ∈ inOrder n node) : k < n := by
  induction node using inOrder.induct n with
  | case1 node hlt ihLeft ihRight =>
      rw [inOrder_of_lt hlt] at h
      rcases List.mem_append.mp h with h | h
      · exact ihLeft h
      · rcases List.mem_cons.mp h with rfl | h
        · exact hlt
        · exact ihRight h
  | case2 node hge =>
      rw [inOrder_of_le (Nat.not_lt.mp hge)] at h
      cases h

/-- With a node the subtree has its children. -/
theorem child_mem_inOrder {n node k c : Nat} (h : k ∈ inOrder n node)
    (hc : c = 2 * k + 1 ∨ c = 2 * k + 2) (hlt : c < n) : c ∈ inOrder n node := by
  induction node using inOrder.induct n with
  | case1 node hnode ihLeft ihRight =>
      rw [inOrder_of_lt hnode] at h ⊢
      rcases List.mem_append.mp h with h | h
      · exact List.mem_append_left _ (ihLeft h)
      · rcases List.mem_cons.mp h with rfl | h
        · -- The child is the root of one of the two subtrees.
          have hroot : c ∈ inOrder n c := by
            rw [inOrder_of_lt hlt]
            exact List.mem_append_right _ List.mem_cons_self
          rcases hc with rfl | rfl
          · exact List.mem_append_left _ hroot
          · exact List.mem_append_right _ (List.mem_cons_of_mem _ hroot)
        · exact List.mem_append_right _ (List.mem_cons_of_mem _ (ihRight h))
  | case2 node hge =>
      rw [inOrder_of_le (Nat.not_lt.mp hge)] at h
      cases h

/-- Every node is below the root. -/
theorem mem_inOrder_root {n k : Nat} (h : k < n) : k ∈ inOrder n 0 := by
  induction k using Nat.strongRecOn with
  | ind k ih =>
      by_cases hzero : k = 0
      · subst hzero
        rw [inOrder_of_lt h]
        exact List.mem_append_right _ List.mem_cons_self
      · have hparent := ih ((k - 1) / 2) (by omega) (by omega)
        exact child_mem_inOrder hparent (by omega) h

/-- The numbers of the nodes below a node begin, in binary and counted from one, with the number of
that node. -/
theorem shift_of_mem_inOrder {n node k : Nat} (h : k ∈ inOrder n node) :
    ∃ depth, (k + 1) / 2 ^ depth = node + 1 := by
  induction node using inOrder.induct n with
  | case1 node hlt ihLeft ihRight =>
      rw [inOrder_of_lt hlt] at h
      rcases List.mem_append.mp h with h | h
      · obtain ⟨depth, hdepth⟩ := ihLeft h
        refine ⟨depth + 1, ?_⟩
        rw [Nat.pow_succ, ← Nat.div_div_eq_div_mul, hdepth]
        omega
      · rcases List.mem_cons.mp h with rfl | h
        · exact ⟨0, by simp⟩
        · obtain ⟨depth, hdepth⟩ := ihRight h
          refine ⟨depth + 1, ?_⟩
          rw [Nat.pow_succ, ← Nat.div_div_eq_div_mul, hdepth]
          omega
  | case2 node hge =>
      rw [inOrder_of_le (Nat.not_lt.mp hge)] at h
      cases h

/-- A number cannot begin with two numbers that are too close to each other. -/
theorem shift_unique {x a b depth depth' : Nat} (ha : x / 2 ^ depth = a) (hb : x / 2 ^ depth' = b)
    (hle : depth ≤ depth') : b = a ∨ 2 * b ≤ a := by
  rcases Nat.eq_or_lt_of_le hle with rfl | hlt
  · exact .inl (hb.symm.trans ha)
  · right
    obtain ⟨more, rfl⟩ := Nat.exists_eq_add_of_lt hlt
    have hb' : a / 2 ^ more / 2 = b := by
      rw [← ha, ← hb, Nat.div_div_eq_div_mul, Nat.div_div_eq_div_mul, ← Nat.pow_succ, ← Nat.pow_add]
      rfl
    have hle := Nat.div_le_self a (2 ^ more)
    omega

theorem nodup_inOrder (n node : Nat) : (inOrder n node).Nodup := by
  induction node using inOrder.induct n with
  | case1 node hlt ihLeft ihRight =>
      -- A node is not below its children: its number is too small to begin with theirs.
      have habove : ∀ child, node < child → node ∉ inOrder n child := by
        intro child hchild hmem
        obtain ⟨depth, hdepth⟩ := shift_of_mem_inOrder hmem
        have := Nat.div_le_self (node + 1) (2 ^ depth)
        omega
      rw [inOrder_of_lt hlt, List.nodup_append]
      refine ⟨ihLeft, List.nodup_cons.mpr ⟨habove _ (by omega), ihRight⟩, ?_⟩
      intro a ha b hb heq
      subst heq
      rcases List.mem_cons.mp hb with rfl | hb
      · exact habove _ (by omega) ha
      · -- Nor is a node below both children.
        obtain ⟨depth, hdepth⟩ := shift_of_mem_inOrder ha
        obtain ⟨depth', hdepth'⟩ := shift_of_mem_inOrder hb
        rcases Nat.le_total depth depth' with hle | hle
        · have := shift_unique hdepth hdepth' hle
          omega
        · have := shift_unique hdepth' hdepth hle
          omega
  | case2 node hge =>
      rw [inOrder_of_le (Nat.not_lt.mp hge)]
      exact List.nodup_nil

/-- From left to right the tree has each of its nodes once. -/
theorem inOrder_perm_range (n : Nat) : (inOrder n 0).Perm (List.range n) := by
  rw [List.perm_ext_iff_of_nodup (nodup_inOrder n 0) List.nodup_range]
  intro k
  rw [List.mem_range]
  exact ⟨lt_of_mem_inOrder, mem_inOrder_root⟩

@[simp] theorem length_inOrder (n : Nat) : (inOrder n 0).length = n := by
  rw [(inOrder_perm_range n).length_eq, List.length_range]

/-! ## Filling the nodes -/

section Fill

variable {α : Type} {f : Nat → α}

/-- Write `f start`, `f (start + 1)` and so on into the slots of the given nodes. -/
def fill (f : Nat → α) : (nodes : List Nat) → (start : Nat) → (slots : List α) → List α
  | [], _, slots => slots
  | node :: nodes, start, slots => fill f nodes (start + 1) (slots.set node (f start))

theorem fill_append (nodes nodes' : List Nat) (start : Nat) (slots : List α) :
    fill f (nodes ++ nodes') start slots =
      fill f nodes' (start + nodes.length) (fill f nodes start slots) := by
  induction nodes generalizing start slots with
  | nil => rfl
  | cons node nodes ih =>
      rw [List.cons_append, fill, fill, ih, List.length_cons, Nat.add_right_comm, Nat.add_assoc]

@[simp] theorem length_fill (nodes : List Nat) (start : Nat) (slots : List α) :
    (fill f nodes start slots).length = slots.length := by
  induction nodes generalizing start slots with
  | nil => rfl
  | cons node nodes ih => rw [fill, ih, List.length_set]

theorem getElem?_fill_of_not_mem {nodes : List Nat} {k : Nat} (hk : k ∉ nodes) (start : Nat)
    (slots : List α) : (fill f nodes start slots)[k]? = slots[k]? := by
  induction nodes generalizing start slots with
  | nil => rfl
  | cons node nodes ih =>
      have hne : node ≠ k := fun heq => hk (heq ▸ List.mem_cons_self)
      rw [fill, ih (fun hmem => hk (List.mem_cons_of_mem _ hmem)), List.getElem?_set_ne hne]

/-- The node at position `i` gets the value for position `i`. -/
theorem getElem?_fill {nodes : List Nat} (hnodup : nodes.Nodup) {i k : Nat}
    (hk : nodes[i]? = some k) (start : Nat) {slots : List α} (hlt : k < slots.length) :
    (fill f nodes start slots)[k]? = some (f (start + i)) := by
  induction nodes generalizing start slots i with
  | nil => cases hk
  | cons node nodes ih =>
      obtain ⟨hnode, hnodes⟩ := List.nodup_cons.mp hnodup
      rw [fill]
      cases i with
      | zero =>
          cases hk
          rw [getElem?_fill_of_not_mem hnode, List.getElem?_set_self hlt]
          rfl
      | succ i =>
          rw [ih hnodes (by simpa using hk) (start + 1) (by simpa using hlt), Nat.add_right_comm,
            Nat.add_assoc]

end Fill

/-! ## Searching -/

section Search

variable {n : Nat} {right : Nat → Bool} {lastRight : Nat → Nat}

/-- The way down from a node, which is numbered from one; `right` says where the search turns right.
Each turn at least doubles the number, so it leaves the tree if `fuel` is large enough. -/
def descend (n : Nat) (right : Nat → Bool) : (fuel index : Nat) → Nat
  | 0, index => index
  | fuel + 1, index =>
      if index ≤ n then
        descend n right fuel (index * 2 + if right (index - 1) then 1 else 0)
      else
        index

/-- `lastRight index` is the node, numbered from one, of the last right turn on the way to `index`,
and zero if all turns were to the left. -/
structure LastRight (n : Nat) (lastRight : Nat → Nat) : Prop where
  root : lastRight 1 = 0
  left : ∀ index, 0 < index → index ≤ n → lastRight (index * 2) = lastRight index
  right : ∀ index, 0 < index → index ≤ n → lastRight (index * 2 + 1) = index

/-- The last node of a list, numbered from one; zero if there is none. -/
def lastOf (nodes : List Nat) : Nat :=
  match nodes.getLast? with
  | none => 0
  | some node => node + 1

/-- The search has come to `index`: it has passed the nodes `front` on their right side and the nodes
`back` on their left side. -/
structure Passed (n : Nat) (right : Nat → Bool) (lastRight : Nat → Nat) (index : Nat)
    (front back : List Nat) : Prop where
  split : inOrder n 0 = front ++ inOrder n (index - 1) ++ back
  right_of : ∀ node ∈ front, right node = true
  left_of : ∀ node ∈ back, right node = false
  last : lastRight index = lastOf front

theorem Passed.start (h : LastRight n lastRight) : Passed n right lastRight 1 [] [] where
  split := by simp
  right_of := by simp
  left_of := by simp
  last := h.root

/-- One turn. -/
theorem Passed.turn {index : Nat} {front back : List Nat} (h : LastRight n lastRight)
    (hmono : (inOrder n 0).Pairwise fun a b => right b = true → right a = true)
    (hpassed : Passed n right lastRight index front back) (hpos : 0 < index) (hle : index ≤ n) :
    ∃ front' back', Passed n right lastRight
      (index * 2 + if right (index - 1) then 1 else 0) front' back' := by
  have hsplit := hpassed.split
  have hleft : 2 * (index - 1) + 1 = index * 2 - 1 := by omega
  have hright : 2 * (index - 1) + 2 = index * 2 + 1 - 1 := by omega
  rw [inOrder_of_lt (show index - 1 < n by omega), hleft, hright] at hsplit
  have hmono' := hmono
  rw [hsplit, List.append_assoc, List.pairwise_append] at hmono'
  obtain ⟨-, hmono', -⟩ := hmono'
  rw [List.append_assoc, List.pairwise_append] at hmono'
  obtain ⟨-, hrest, hcross⟩ := hmono'
  rw [List.cons_append, List.pairwise_cons] at hrest
  by_cases hturn : right (index - 1) = true
  · -- Everything to the left of a node where the search turns right is passed on its right side.
    rw [if_pos hturn]
    refine ⟨front ++ inOrder n (index * 2 - 1) ++ [index - 1], back, ?_, ?_, hpassed.left_of, ?_⟩
    · simp [hsplit]
    · intro node hnode
      rcases List.mem_append.mp hnode with hnode | hnode
      · rcases List.mem_append.mp hnode with hnode | hnode
        · exact hpassed.right_of node hnode
        · exact hcross node hnode (index - 1) (by simp) hturn
      · rw [List.mem_singleton.mp hnode]
        exact hturn
    · have hlast : lastOf (front ++ inOrder n (index * 2 - 1) ++ [index - 1]) = index - 1 + 1 := by
        simp [lastOf]
      rw [h.right index hpos hle, hlast, Nat.sub_add_cancel hpos]
  · rw [if_neg hturn, Nat.add_zero]
    refine ⟨front, (index - 1) :: inOrder n (index * 2 + 1 - 1) ++ back, ?_, hpassed.right_of, ?_,
      (h.left index hpos hle).trans hpassed.last⟩
    · simp [hsplit]
    · intro node hnode
      rw [← Bool.not_eq_true]
      intro hnode'
      rcases List.mem_cons.mp hnode with rfl | hnode
      · exact hturn hnode'
      · exact hturn (hrest.1 node hnode hnode')

/-- At the end of the way down every node has been passed. -/
theorem Passed.descend (h : LastRight n lastRight)
    (hmono : (inOrder n 0).Pairwise fun a b => right b = true → right a = true) (fuel : Nat)
    {index : Nat} {front back : List Nat} (hpassed : Passed n right lastRight index front back)
    (hpos : 0 < index) (hfuel : n < index + fuel) :
    ∃ front' back', n < descend n right fuel index ∧
      Passed n right lastRight (descend n right fuel index) front' back' := by
  induction fuel generalizing index front back with
  | zero => exact ⟨front, back, hfuel, hpassed⟩
  | succ fuel ih =>
      rw [Eytzinger.descend]
      split
      · rename_i hle
        obtain ⟨front', back', hturned⟩ := hpassed.turn h hmono hpos hle
        exact ih hturned (by omega) (by omega)
      · rename_i hgt
        exact ⟨front, back, Nat.not_le.mp hgt, hpassed⟩

/-- The result of a search.  If the search turns right at the nodes whose position from left to right
satisfies `p`, and `p` holds for an initial part of the positions, then the last right turn was at the
last position that satisfies `p`. -/
theorem search_spec (h : LastRight n lastRight) {p : Nat → Bool}
    (hright : ∀ i node, (inOrder n 0)[i]? = some node → right node = p i)
    (hp : ∀ i j, i < j → j < n → p j = true → p i = true) :
    (lastRight (descend n right (n + 1) 1) = 0 ∧ ∀ i < n, p i = false) ∨
      ∃ i node, (inOrder n 0)[i]? = some node ∧
        lastRight (descend n right (n + 1) 1) = node + 1 ∧ p i = true ∧
          ∀ j, i < j → j < n → p j = false := by
  have hmono : (inOrder n 0).Pairwise fun a b => right b = true → right a = true := by
    rw [List.pairwise_iff_getElem]
    intro i j hi hj hij hb
    rw [hright j _ (List.getElem?_eq_getElem hj)] at hb
    rw [hright i _ (List.getElem?_eq_getElem hi)]
    exact hp i j hij (by simpa using hj) hb
  obtain ⟨front, back, hout, hpassed⟩ :=
    (Passed.start h).descend h hmono (n + 1) Nat.one_pos (by omega)
  have hsplit := hpassed.split
  rw [inOrder_of_le (show n ≤ descend n right (n + 1) 1 - 1 by omega), List.append_nil] at hsplit
  -- The positions from `front.length` on are those of `back`.
  have hlater : ∀ j, front.length ≤ j → j < n → p j = false := by
    intro j hle hj
    obtain ⟨node, hnode⟩ : ∃ node, (inOrder n 0)[j]? = some node :=
      ⟨_, List.getElem?_eq_getElem (by simpa using hj)⟩
    rw [← hright j node hnode]
    rw [hsplit, List.getElem?_append_right hle] at hnode
    exact hpassed.left_of node (List.mem_of_getElem? hnode)
  rcases List.eq_nil_or_concat front with rfl | ⟨init, node, rfl⟩
  · left
    refine ⟨hpassed.last, ?_⟩
    intro i hi
    exact hlater i (Nat.zero_le i) hi
  · right
    have hnode : (inOrder n 0)[init.length]? = some node := by
      rw [hsplit]
      simp
    refine ⟨init.length, node, hnode, ?_, ?_, ?_⟩
    · rw [hpassed.last]
      simp [lastOf]
    · rw [← hright _ _ hnode]
      exact hpassed.right_of node (by simp)
    · intro j hij hj
      exact hlater j (by rw [List.concat_eq_append, List.length_append]; exact hij) hj

end Search

end Eytzinger
end Lib
end Gobble
