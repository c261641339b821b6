import Koval.Probe.Memory

/-!
This module contains that the chain of indices is one cycle through the whole buffer.
-/

namespace Koval

theorem set?_eq_some {xs : Array Nat} {i : Nat} (h : i < xs.size) (value : Nat)
    : set? xs i value = some (xs.set i value h) := by
  unfold set?
  rw [dif_pos h]

theorem exists_swap? {xs : Array Nat} {i j : Nat} (hi : i < xs.size) (hj : j < xs.size)
    : ∃ ys, swap? xs i j = some ys ∧ ys.Perm xs := by
  unfold swap?
  rw [dif_pos ⟨hi, hj⟩]
  exact ⟨_, rfl, Array.swap_perm hi hj⟩

variable {σ : Type} {nextU64 : σ → UInt64 × σ}

theorem genRange_lt (rng : σ) {limit : Nat} (h : 0 < limit)
    : (genRange nextU64 rng limit).fst < limit := by
  unfold genRange
  rw [if_neg (Nat.ne_of_gt h)]
  exact Nat.mod_lt _ h

namespace buildPointerChaseChain

theorem exists_shuffle (rng : σ) {indices : Array Nat} {i : Nat} (h : i < indices.size)
    : ∃ indices', shuffle nextU64 rng indices i = some indices' ∧ indices'.Perm indices := by
  induction i generalizing rng indices with
  | zero => exact ⟨indices, rfl, .refl _⟩
  | succ i ih =>
    have hlt : (genRange nextU64 rng (i + 1 + 1)).fst < i + 1 + 1 := genRange_lt rng (by omega)
    rcases hrange : genRange nextU64 rng (i + 1 + 1) with ⟨j, rng'⟩
    rw [hrange] at hlt
    have hj : j < indices.size := by
      dsimp only at hlt
      omega
    rcases exists_swap? h hj with ⟨swapped, hswap, hperm⟩
    have hsize : i < swapped.size := by
      rw [hperm.size_eq]
      omega
    rcases ih rng' hsize with ⟨indices', hshuffle, hperm'⟩
    refine ⟨indices', ?_, hperm'.trans hperm⟩
    rw [shuffle, hrange]
    dsimp only
    rw [hswap]
    exact hshuffle

def Linked (order : List Nat) (buf : Array Nat) (count : Nat) : Prop :=
  ∀ i (h : i + 1 < order.length), i < count → buf[order[i]]? = some order[i + 1]

variable {order : List Nat} {buf : Array Nat}

-- An index that comes later is another one, so that what is there already stays.
theorem Linked.of_set {count value : Nat} (hnodup : order.Nodup) (h : Linked order buf count)
    (hcount : count < order.length) (hlt : order[count] < buf.size)
    : Linked order (buf.set order[count] value hlt) count := by
  intro i hi hcounted
  have hne : order[count] ≠ order[i] := by
    rw [ne_eq, List.Nodup.getElem_inj_iff hnodup]
    omega
  rw [Array.getElem?_set_ne _ hne]
  exact h i hi hcounted

theorem Linked.set {count : Nat} (hnodup : order.Nodup) (h : Linked order buf count)
    (hcount : count + 1 < order.length) (hlt : order[count] < buf.size)
    : Linked order (buf.set order[count] order[count + 1] hlt) (count + 1) := by
  intro i hi hcounted
  rcases Nat.lt_succ_iff_lt_or_eq.mp hcounted with hcounted | rfl
  . exact h.of_set hnodup (by omega) hlt i hi hcounted
  . rw [Array.getElem?_set_self]

theorem exists_link {first : Nat} {indices : Array Nat} (hnodup : (first :: indices.toList).Nodup)
    (hlt : ∀ i ∈ indices, i < buf.size) (h : Linked (first :: indices.toList) buf 1) {count : Nat}
    (hcount : count < indices.size)
    : ∃ buf', link indices buf count = some buf' ∧ buf'.size = buf.size
        ∧ Linked (first :: indices.toList) buf' (count + 1) := by
  induction count with
  | zero => exact ⟨buf, rfl, rfl, h⟩
  | succ count ih =>
    rcases ih (by omega) with ⟨buf', hlink, hsize, hlinked⟩
    have hindex : indices[count] < buf'.size := by
      rw [hsize]
      exact hlt _ (Array.getElem_mem _)
    refine ⟨buf'.set indices[count] indices[count + 1] hindex, ?_, ?_, ?_⟩
    . rw [link, hlink]
      simp only [Option.bind_eq_bind, Option.bind_some, Array.getElem?_eq_getElem hcount,
        Array.getElem?_eq_getElem (Nat.lt_of_succ_lt hcount)]
      exact set?_eq_some hindex _
    . rw [Array.size_set, hsize]
    . exact hlinked.set hnodup (by simpa using hcount) hindex

theorem isCycle_of_linked {first : Nat} {rest : List Nat} (hnodup : (first :: rest).Nodup)
    (h : Linked (first :: rest) buf rest.length)
    (hlast : ∀ hlt : rest.length < (first :: rest).length,
      buf[(first :: rest)[rest.length]]? = some first)
    : Chase.IsCycle (fun curr => buf[curr]?) (first :: rest) where
  nodup := hnodup
  step := by
    intro i hi
    rw [List.length_cons] at hi ⊢
    by_cases hnext : i < rest.length
    . have hlt : i + 1 < (first :: rest).length := Nat.succ_lt_succ hnext
      rw [Nat.mod_eq_of_lt (Nat.succ_lt_succ hnext), List.getElem?_eq_getElem hlt]
      exact h i hlt hnext
    . obtain rfl : i = rest.length := by omega
      rw [Nat.mod_self]
      exact hlast hi

theorem range_eq_cons {n : Nat} (h : 2 ≤ n) : List.range n = 0 :: List.range' 1 (n - 1) := by
  have hsucc : n = n - 1 + 1 := by omega
  conv => lhs; rw [hsucc, List.range_eq_range', List.range'_succ]

structure Tours (buf : Array Nat) (rest : List Nat) : Prop where
  perm : (0 :: rest).Perm (List.range buf.size)
  cycle : Chase.IsCycle (fun curr => buf[curr]?) (0 :: rest)

-- What comes after the shuffle links a permutation of the indices to a tour.
theorem exists_tours_of_perm {indices : Array Nat} (hsize : indices.size = buf.size - 1)
    (h : 2 ≤ buf.size) (horder : (0 :: indices.toList).Perm (List.range buf.size))
    : ∃ buf', (do
          let linked ← set? buf 0 (← indices[0]?)
          let linked ← link indices linked (buf.size - 2)
          let linked ← set? linked (← indices[buf.size - 2]?) 0
          return (buf.size, linked)) = some (buf.size, buf')
        ∧ buf'.size = buf.size ∧ Tours buf' indices.toList := by
  have hnodup : (0 :: indices.toList).Nodup := horder.nodup_iff.mpr List.nodup_range
  have hlt : ∀ i ∈ indices, i < buf.size := by
    intro i hi
    rw [← List.mem_range, ← horder.mem_iff]
    exact List.mem_cons_of_mem 0 (Array.mem_toList_iff.mpr hi)
  have hfirst : 0 < indices.size := by omega
  have hlast : buf.size - 2 < indices.size := by omega
  have hpos : 0 < buf.size := by omega
  have hnone : Linked (0 :: indices.toList) buf 0 := fun i _ hi => absurd hi (Nat.not_lt_zero i)
  have hlinked : Linked (0 :: indices.toList) (buf.set 0 indices[0] hpos) 1 :=
    hnone.set hnodup (by simpa using hfirst) hpos
  rcases exists_link hnodup (by simpa using hlt) hlinked hlast with ⟨buf', hlink, hsize', hlinked'⟩
  rw [Array.size_set] at hsize'
  have hindex : indices[buf.size - 2] < buf'.size := by
    rw [hsize']
    exact hlt _ (Array.getElem_mem _)
  refine ⟨buf'.set indices[buf.size - 2] 0 hindex, ?_, ?_, ?_, ?_⟩
  . simp only [Option.bind_eq_bind, Option.bind_some, Array.getElem?_eq_getElem hfirst,
      set?_eq_some hpos, hlink, Array.getElem?_eq_getElem hlast, set?_eq_some hindex]
    rfl
  . rw [Array.size_set, hsize']
  . rw [Array.size_set, hsize']
    exact horder
  . have hlength : indices.toList.length = buf.size - 2 + 1 := by
      rw [Array.length_toList]
      omega
    apply isCycle_of_linked hnodup
    . rw [hlength]
      exact hlinked'.of_set hnodup (by simp; omega) hindex
    . intro _
      simp only [hlength, List.getElem_cons_succ, Array.getElem_toList]
      exact Array.getElem?_set_self _

theorem exists_tours_of_two_le (rng : σ) (h : 2 ≤ buf.size)
    : ∃ buf' rest, buildPointerChaseChain nextU64 rng buf = some (buf.size, buf')
        ∧ buf'.size = buf.size ∧ Tours buf' rest := by
  have hstart : (Array.range' 1 (buf.size - 1)).size - 1 < (Array.range' 1 (buf.size - 1)).size := by
    rw [Array.size_range']
    omega
  rcases @exists_shuffle σ nextU64 rng _ _ hstart with ⟨indices, hshuffle, hperm⟩
  have hsize : indices.size = buf.size - 1 := by
    rw [hperm.size_eq, Array.size_range']
  have horder : (0 :: indices.toList).Perm (List.range buf.size) := by
    rw [range_eq_cons h, ← Array.toList_range']
    exact hperm.toList.cons 0
  rcases exists_tours_of_perm hsize h horder with ⟨buf', hlink, hsize', htours⟩
  refine ⟨buf', indices.toList, ?_, hsize', htours⟩
  unfold buildPointerChaseChain
  rw [if_neg (by omega), if_neg (by omega)]
  dsimp only
  rw [hshuffle]
  exact hlink

theorem exists_tours (rng : σ) (h : 1 ≤ buf.size)
    : ∃ buf' rest, buildPointerChaseChain nextU64 rng buf = some (buf.size, buf')
        ∧ buf'.size = buf.size ∧ Tours buf' rest := by
  by_cases htwo : 2 ≤ buf.size
  . exact exists_tours_of_two_le rng htwo
  . have hone : buf.size = 1 := by omega
    refine ⟨buf.set 0 0 h, [], ?_, Array.size_set _, ?_, ?_⟩
    . unfold buildPointerChaseChain
      rw [if_neg (by omega), if_pos hone, set?_eq_some h, hone]
      rfl
    . rw [Array.size_set, hone]
      exact .refl _
    . apply isCycle_of_linked (List.nodup_singleton 0)
      . exact fun i _ hi => absurd hi (Nat.not_lt_zero i)
      . exact fun _ => Array.getElem?_set_self _

end buildPointerChaseChain

structure IsFullCycle (buf : Array Nat) : Prop where
  entries : ∀ entry ∈ buf, entry < buf.size
  visits : ∀ i < buf.size, ∃! steps, steps < buf.size ∧ chase buf steps 0 = some i
  returns : ∀ steps, chase buf steps 0 = some 0 ↔ buf.size ∣ steps
  inBounds : ∀ steps, ∃ curr < buf.size, chase buf steps 0 = some curr

namespace buildPointerChaseChain

variable {buf : Array Nat} {rest : List Nat}

theorem Tours.mem_iff (h : Tours buf rest) {i : Nat} : i ∈ 0 :: rest ↔ i < buf.size := by
  rw [h.perm.mem_iff, List.mem_range]

theorem Tours.length_eq (h : Tours buf rest) : (0 :: rest).length = buf.size := by
  rw [h.perm.length_eq, List.length_range]

theorem Tours.isFullCycle (h : Tours buf rest) : IsFullCycle buf where
  entries := by
    intro entry hentry
    rcases Array.mem_iff_getElem.mp hentry with ⟨i, hi, rfl⟩
    rcases List.mem_iff_getElem.mp (h.mem_iff.mpr hi) with ⟨place, hplace, rfl⟩
    have hstep := h.cycle.step place hplace
    rw [Array.getElem?_eq_getElem hi] at hstep
    exact h.mem_iff.mp (List.mem_of_getElem? hstep.symm)
  visits := by
    intro i hi
    rw [← h.length_eq]
    exact h.cycle.existsUnique_follow_head (by simp) (h.mem_iff.mpr hi)
  returns := by
    intro steps
    rw [← h.length_eq]
    exact h.cycle.follow_head_eq_head_iff (by simp) steps
  inBounds := by
    intro steps
    rcases h.cycle.exists_follow_head (by simp) steps with ⟨curr, hcurr, hfollow⟩
    exact ⟨curr, h.mem_iff.mp hcurr, hfollow⟩

theorem exists_isFullCycle (rng : σ) (h : 1 ≤ buf.size)
    : ∃ buf', buildPointerChaseChain nextU64 rng buf = some (buf.size, buf')
        ∧ buf'.size = buf.size ∧ IsFullCycle buf' := by
  rcases exists_tours rng h with ⟨buf', rest, hbuild, hsize, htours⟩
  exact ⟨buf', hbuild, hsize, htours.isFullCycle⟩

end buildPointerChaseChain

open buildPointerChaseChain in
theorem measureLatencyNs_isSome (rng : σ) (workingSetBytes iterations elapsedNs : Nat)
    : (measureLatencyNs nextU64 rng workingSetBytes iterations elapsedNs).isSome := by
  unfold measureLatencyNs
  dsimp only
  split
  . rfl
  . split
    . rfl
    . next hnonempty =>
      have hpos : 1 ≤ (Array.replicate (workingSetBytes / 8) 0).size := by
        rw [Array.size_replicate]
        omega
      rcases @exists_isFullCycle σ nextU64 _ rng hpos with ⟨buf, hbuild, _, hcycle⟩
      rw [hbuild]
      simp only [Option.bind_eq_bind, Option.bind_some]
      split
      . rfl
      . rcases hcycle.inBounds (min (Array.replicate (workingSetBytes / 8) 0).size 100000) with
          ⟨_, _, hwarm⟩
        rcases hcycle.inBounds (min (iterations * (Array.replicate (workingSetBytes / 8) 0).size
          % 2 ^ 64) 1000000) with ⟨_, _, htimed⟩
        rw [hwarm, Option.bind_some, htimed, Option.bind_some]
        split <;> rfl

/--
The chain is one cycle through the buffer, whatever the generator yields; so no loop over it, of any
length, goes out of its bounds.
-/
theorem pointerChase_full (nextU64 : σ → UInt64 × σ) (rng : σ) {buf : Array Nat}
    (hbuf : 1 ≤ buf.size)
    : (∃ buf', buildPointerChaseChain nextU64 rng buf = some (buf.size, buf')
        ∧ buf'.size = buf.size ∧ IsFullCycle buf')
        ∧
      ∀ workingSetBytes iterations elapsedNs,
        (measureLatencyNs nextU64 rng workingSetBytes iterations elapsedNs).isSome :=
  ⟨buildPointerChaseChain.exists_isFullCycle rng hbuf, measureLatencyNs_isSome rng⟩

theorem pointerChase_full_eight
    : ∃ buf, buildPointerChaseChain SimpleRng.nextU64 .seed (Array.replicate 8 0) = some (8, buf)
        ∧ buf.size = 8 ∧ IsFullCycle buf :=
  (@pointerChase_full _ SimpleRng.nextU64 .seed (Array.replicate 8 0) (by decide)).left

end Koval
