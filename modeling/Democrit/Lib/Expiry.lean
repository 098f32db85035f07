import Mathlib.Logic.Function.Basic
import Mathlib.Order.Lattice
import Mathlib.Data.List.Induction

/-!
# Expiry through a queue

A table whose entries carry a stamp, and a queue of what was stamped when.  An entry expires when its
stamp is older than some bound.  To find the expired entries, only the front of the queue is read:
an event that is old enough is taken off, and its entry is dropped if the stamp of the entry *now*
is old, since the entry may have been renewed, dropped or added again after the event.

* `plain` — what the table is for: entries are written, dropped, and filtered by their stamp.
* `Store` — the table with the queue.
* **`Store.run_table`** — the two agree, in every run in which the stamps that are written never
  decrease.  The invariant is `Store.Queued`: the queue is in order, and the last stamp of every
  entry is still in it.
* `plain_iff` — what is in the table, read off the history.

Nothing here names the program verified with it.
-/

namespace Expiry

variable {K V T : Type*} [LinearOrder T] (stamp : V → T)

/-- What can be done with the table. -/
inductive Op (K V T : Type*) where
  | put (k : K) (v : V)
  | drop (k : K)
  /-- Drop what has a stamp before `bound`. -/
  | expire (bound : T)

/-! ## What is meant -/

/-- The entries that are not expired. -/
def fresh (bound : T) (table : K → Option V) : K → Option V :=
  fun k => (table k).filter fun v => bound ≤ stamp v

variable {stamp} in
lemma fresh_eq_some {bound : T} {table : K → Option V} {k : K} {v : V} :
    fresh stamp bound table k = some v ↔ table k = some v ∧ bound ≤ stamp v := by
  simp [fresh, Option.filter_eq_some_iff]

variable {stamp} in
lemma fresh_eq_self {bound : T} {table : K → Option V}
    (h : ∀ k v, table k = some v → bound ≤ stamp v) : fresh stamp bound table = table := by
  funext k
  refine Option.ext fun v => ?_
  rw [fresh_eq_some, and_iff_left_iff_imp]
  exact h k v

variable [DecidableEq K]

/-- One operation on the table. -/
def plainStep (table : K → Option V) : Op K V T → K → Option V
  | .put k v => Function.update table k (some v)
  | .drop k => Function.update table k none
  | .expire bound => fresh stamp bound table

/-- The table after a history of operations. -/
def plain (ops : List (Op K V T)) : K → Option V := ops.foldl (plainStep stamp) fun _ => none

/-- The operation leaves the entry of `k` with the value `v` alone. -/
def Op.Spares (k : K) (v : V) : Op K V T → Prop
  | .put k' _ | .drop k' => k' ≠ k
  | .expire bound => bound ≤ stamp v

/-- **The table, read off the history**: an entry is there if it was put there, and since then it was
neither written nor dropped again, nor was there an expiry that its stamp is too old for. -/
theorem plain_iff (ops : List (Op K V T)) (k : K) (v : V) :
    plain stamp ops k = some v ↔
      ∃ before after, ops = before ++ .put k v :: after ∧ ∀ op ∈ after, op.Spares stamp k v := by
  induction ops using List.reverseRecOn with
  | nil => simp [plain]
  | append_singleton ops op ih =>
      have hstep : plain stamp (ops ++ [op]) = plainStep stamp (plain stamp ops) op := by
        rw [plain, List.foldl_append]
        rfl
      -- the entry was put there before, and the last operation spares it, or it is that operation
      have hsplit : (∃ before after, ops ++ [op] = before ++ .put k v :: after ∧
          ∀ op' ∈ after, op'.Spares stamp k v) ↔
          op = .put k v ∨ plain stamp ops k = some v ∧ op.Spares stamp k v := by
        rw [ih]
        constructor
        · rintro ⟨before, after, heq, hafter⟩
          rcases List.eq_nil_or_concat after with rfl | ⟨after, last, rfl⟩
          · obtain ⟨_, hop⟩ := List.append_inj' heq rfl
            exact Or.inl (List.singleton_inj.mp hop)
          · have hassoc : ops ++ [op] = (before ++ .put k v :: after) ++ [last] := by
              simp [heq]
            obtain ⟨hops, hop⟩ := List.append_inj' hassoc rfl
            obtain rfl := List.singleton_inj.mp hop
            refine Or.inr ⟨⟨before, after, hops, fun op' h => hafter op' (by simp [h])⟩, ?_⟩
            exact hafter op (by simp)
        · rintro (rfl | ⟨⟨before, after, rfl, hafter⟩, hop⟩)
          · exact ⟨ops, [], rfl, by simp⟩
          · refine ⟨before, after ++ [op], by simp, fun op' h => ?_⟩
            rcases List.mem_append.mp h with h | h
            · exact hafter op' h
            · rwa [List.mem_singleton.mp h]
      rw [hstep, hsplit]
      cases op with
      | put k' v' =>
          by_cases hk : k' = k
          · subst hk
            simp [plainStep, Op.Spares]
          · have hne : k ≠ k' := fun h => hk h.symm
            simp [plainStep, Op.Spares, Function.update_of_ne hne, hk]
      | drop k' =>
          by_cases hk : k' = k
          · subst hk
            simp [plainStep, Op.Spares]
          · have hne : k ≠ k' := fun h => hk h.symm
            simp [plainStep, Op.Spares, Function.update_of_ne hne, hk]
      | expire bound => simp [plainStep, Op.Spares, fresh_eq_some]

/-! ## With a queue -/

/-- The table and the queue. -/
structure Store (K V T : Type*) where
  table : K → Option V := fun _ => none
  queue : List (K × T) := []

/-- Take the old events off the queue, and drop what they lead to if it is expired. -/
def sweep (bound : T) : List (K × T) → (K → Option V) → Store K V T
  | [], table => { table }
  | ev :: rest, table =>
      if ev.2 < bound then
        sweep bound rest (Function.update table ev.1 (fresh stamp bound table ev.1))
      else { table, queue := ev :: rest }

/-- One operation. -/
def Store.step (s : Store K V T) : Op K V T → Store K V T
  | .put k v => { table := Function.update s.table k (some v), queue := s.queue ++ [(k, stamp v)] }
  | .drop k => { s with table := Function.update s.table k none }
  | .expire bound => sweep stamp bound s.queue s.table

/-- A whole run. -/
def Store.run (ops : List (Op K V T)) : Store K V T := ops.foldl (Store.step stamp) {}

/-- **The invariant**: the events are in order, and the stamp of every entry is in the queue. -/
structure Store.Queued (s : Store K V T) : Prop where
  sorted : s.queue.Pairwise fun a b => a.2 ≤ b.2
  queued : ∀ k v, s.table k = some v → (k, stamp v) ∈ s.queue

variable {stamp}

/-- An event off the queue does nothing that the whole expiry would not do. -/
lemma fresh_update {bound : T} {table : K → Option V} {k : K} :
    fresh stamp bound (Function.update table k (fresh stamp bound table k))
      = fresh stamp bound table := by
  funext k'
  by_cases hk : k' = k
  · subst hk
    refine Option.ext fun v => ?_
    simp [fresh_eq_some]
  · simp [fresh, Function.update_of_ne hk]

/-- **The sweep is the whole expiry**, if the events are in order and every expired entry has one. -/
lemma sweep_table {bound : T} {queue : List (K × T)} {table : K → Option V}
    (hsorted : queue.Pairwise fun a b => a.2 ≤ b.2)
    (hq : ∀ k v, table k = some v → stamp v < bound → (k, stamp v) ∈ queue) :
    (sweep stamp bound queue table).table = fresh stamp bound table := by
  induction queue generalizing table with
  | nil =>
      refine (fresh_eq_self fun k v hk => ?_).symm
      by_contra hlt
      simpa using hq k v hk (not_le.mp hlt)
  | cons ev rest ih =>
      obtain ⟨hfirst, hsorted⟩ := List.pairwise_cons.mp hsorted
      simp only [sweep]
      split
      · rw [ih hsorted, fresh_update]
        -- the entry of the event is gone if it was expired
        intro k v hk hlt
        by_cases hkev : k = ev.1
        · subst hkev
          rw [Function.update_self, fresh_eq_some] at hk
          exact absurd hlt (not_lt.mpr hk.2)
        · rw [Function.update_of_ne hkev] at hk
          rcases List.mem_cons.mp (hq k v hk hlt) with rfl | hmem
          · exact absurd rfl hkev
          · exact hmem
      · rename_i hnew
        refine (fresh_eq_self fun k v hk => ?_).symm
        by_contra hlt
        rcases List.mem_cons.mp (hq k v hk (not_le.mp hlt)) with rfl | hmem
        · exact hnew (not_le.mp hlt)
        · exact hnew (lt_of_le_of_lt (hfirst _ hmem) (not_le.mp hlt))

/-- What is left of the queue: its end, with all events that are not old. -/
lemma sweep_queue {bound : T} {queue : List (K × T)} {table : K → Option V} :
    (sweep stamp bound queue table).queue.Sublist queue ∧
      ∀ ev ∈ queue, bound ≤ ev.2 → ev ∈ (sweep stamp bound queue table).queue := by
  induction queue generalizing table with
  | nil => simp [sweep]
  | cons ev rest ih =>
      simp only [sweep]
      split
      · rename_i hold
        refine ⟨ih.1.trans (List.sublist_cons_self ev rest), fun e he hb => ?_⟩
        rcases List.mem_cons.mp he with rfl | he
        · exact absurd hb (not_le.mpr hold)
        · exact ih.2 e he hb
      · exact ⟨List.Sublist.refl _, fun e he _ => he⟩

/-- **One operation.**  What is put must not be stamped before anything that is queued. -/
lemma Store.Queued.step {s : Store K V T} (h : s.Queued stamp) {op : Op K V T}
    (hop : ∀ k v, op = .put k v → ∀ ev ∈ s.queue, ev.2 ≤ stamp v) :
    (s.step stamp op).Queued stamp ∧ (s.step stamp op).table = plainStep stamp s.table op := by
  cases op with
  | put k v =>
      refine ⟨⟨?_, ?_⟩, rfl⟩
      · refine List.pairwise_append.mpr ⟨h.sorted, List.pairwise_singleton _ _, ?_⟩
        intro a ha b hb
        obtain rfl := List.mem_singleton.mp hb
        exact hop k v rfl a ha
      · intro k' v' hk
        by_cases hkk : k' = k
        · subst hkk
          simp only [Store.step, Function.update_self, Option.some.injEq] at hk
          subst hk
          simp [Store.step]
        · simp only [Store.step, Function.update_of_ne hkk] at hk
          exact List.mem_append_left _ (h.queued k' v' hk)
  | drop k =>
      refine ⟨⟨h.sorted, ?_⟩, rfl⟩
      intro k' v' hk
      by_cases hkk : k' = k
      · subst hkk
        simp [Store.step] at hk
      · simp only [Store.step, Function.update_of_ne hkk] at hk
        exact h.queued k' v' hk
  | expire bound =>
      have htable : (s.step stamp (.expire bound)).table = fresh stamp bound s.table :=
        sweep_table h.sorted fun k v hk _ => h.queued k v hk
      obtain ⟨hsub, hkept⟩ := @sweep_queue K V T _ stamp _ bound s.queue s.table
      refine ⟨⟨h.sorted.sublist hsub, ?_⟩, htable⟩
      intro k v hk
      rw [htable, fresh_eq_some] at hk
      exact hkept _ (h.queued k v hk.1) hk.2

/-- The stamps that are put never decrease. -/
def Ordered (stamp : V → T) (ops : List (Op K V T)) : Prop :=
  ops.Pairwise fun a b => ∀ k v k' v', a = .put k v → b = .put k' v' → stamp v ≤ stamp v'

/-- **Every run.**  Reading only the front of the queue is as good as filtering the whole table. -/
theorem Store.run_table {ops : List (Op K V T)} (h : Ordered stamp ops) :
    (Store.run stamp ops).Queued stamp ∧ (Store.run stamp ops).table = plain stamp ops ∧
      ∀ ev ∈ (Store.run stamp ops).queue, ∃ k v, .put k v ∈ ops ∧ ev.2 = stamp v := by
  induction ops using List.reverseRecOn with
  | nil => exact ⟨⟨List.Pairwise.nil, nofun⟩, rfl, nofun⟩
  | append_singleton ops op ih =>
      obtain ⟨hops, _, hlast⟩ := List.pairwise_append.mp h
      obtain ⟨hq, htable, hev⟩ := ih hops
      have hstep : Store.run stamp (ops ++ [op]) = (Store.run stamp ops).step stamp op := by
        rw [Store.run, List.foldl_append]
        rfl
      have hput : ∀ k v, op = .put k v → ∀ ev ∈ (Store.run stamp ops).queue, ev.2 ≤ stamp v := by
        rintro k v rfl ev hmem
        obtain ⟨k', v', hput, heq⟩ := hev ev hmem
        rw [heq]
        exact hlast _ hput _ (by simp) k' v' k v rfl rfl
      obtain ⟨hq', htable'⟩ := hq.step hput
      rw [hstep]
      refine ⟨hq', ?_, ?_⟩
      · rw [htable', htable, plain, plain, List.foldl_append]
        rfl
      · -- only `put` adds an event
        intro ev hmem
        have hold : ev ∈ (Store.run stamp ops).queue →
            ∃ k v, .put k v ∈ ops ++ [op] ∧ ev.2 = stamp v := by
          intro hmem
          obtain ⟨k, v, hput, heq⟩ := hev ev hmem
          exact ⟨k, v, List.mem_append_left _ hput, heq⟩
        cases op with
        | put k v =>
            rcases List.mem_append.mp hmem with hmem | hmem
            · exact hold hmem
            · rw [List.mem_singleton.mp hmem]
              exact ⟨k, v, by simp, rfl⟩
        | drop k => exact hold hmem
        | expire bound => exact hold (sweep_queue.1.subset hmem)

end Expiry
