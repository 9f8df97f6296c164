import CommandSet.Proofs.Protocol.Scopes
import CommandSet.Proofs.Text.ByteOrder

/-!
# Sorting entries in place

Entries can be sorted by their parents' names in the array that holds them: every entry in
turn sinks to the left, changing places with its neighbour as long as the neighbour's parent
has the greater name.  Neighbours under one parent never change places, so the order within
a parent stays; and what stands to the left of the entry in motion, together with what it
has passed, is sorted throughout.  A sorted list is determined by the entries under each
name, so the loop and the recursive sort agree.

Main definitions:

- {lit}`sink`: one entry sinks to its place.
- {lit}`sortInPlace`: all entries do, from the left to the right.

Main results:

- Theorem {lit}`sink_sorted`: the sorted prefix grows by the entry that sinks.
- Theorem {lit}`filter_sortInPlace`: the entries under one name keep their order.
- Theorem {lit}`sortByParent_stable`: the sort by parents is the stable one.
-/

namespace CommandSet

/-! ## The loops -/

/-- Let the entry at {lit}`j` sink to the left past all greater neighbours. -/
def sink {n : Nat} (entries : Vector Entry n) : (j : Nat) → j < n → Vector Entry n
  | 0, _ => entries
  | j + 1, h =>
      if entries[j].parent > entries[j + 1].parent then
        sink (entries.swap j (j + 1)) j (by omega)
      else entries

/-- Let the entries sink one after the other, beginning with the one at {lit}`i`. -/
def sinkFrom {n : Nat} (i : Nat) (entries : Vector Entry n) : Vector Entry n :=
  if h : i < n then sinkFrom (i + 1) (sink entries i h) else entries
termination_by n - i

/-- Sort entries by their parents' names; the first one stands in its place. -/
def sortInPlace {n : Nat} (entries : Vector Entry n) : Vector Entry n :=
  sinkFrom 1 entries

/-! ## Changing places -/

variable {n : Nat}

/-- Neighbours that change places leave everything before and behind them. -/
theorem exists_toList_swap (entries : Vector Entry n) {j : Nat} (h : j + 1 < n) :
    ∃ left rest, left.length = j ∧
      entries.toList = left ++ entries[j] :: entries[j + 1] :: rest ∧
      (entries.swap j (j + 1)).toList = left ++ entries[j + 1] :: entries[j] :: rest := by
  have hlength : (entries.toList.take j).length = j := by
    rw [List.length_take, Vector.length_toList]
    omega
  have hsplit : entries.toList =
      entries.toList.take j ++ entries[j] :: entries[j + 1] :: entries.toList.drop (j + 2) := by
    have hfirst : j < entries.toList.length := by simp only [Vector.length_toList]; omega
    have hsecond : j + 1 < entries.toList.length := by simp only [Vector.length_toList]; omega
    conv_lhs => rw [← List.take_append_drop j entries.toList, List.drop_eq_getElem_cons hfirst,
      List.drop_eq_getElem_cons hsecond]
    simp only [Vector.getElem_toList]
  refine ⟨entries.toList.take j, entries.toList.drop (j + 2), hlength, hsplit, ?_⟩
  rw [Vector.toList_swap]
  conv_lhs => rw [hsplit]
  rw [List.set_append_right _ _ (by omega), List.set_append_right _ _ (by omega), hlength]
  simp

/-- Entries under different parents may change places. -/
theorem filter_swap (entries : Vector Entry n) {j : Nat} (h : j + 1 < n)
    (hne : entries[j].parent ≠ entries[j + 1].parent) (name : String) :
    (entries.swap j (j + 1)).toList.filter (fun e => e.parent == name) =
      entries.toList.filter (fun e => e.parent == name) := by
  obtain ⟨left, rest, -, hbefore, hafter⟩ := exists_toList_swap entries h
  rw [hbefore, hafter, List.filter_append, List.filter_append]
  by_cases hfirst : entries[j].parent = name
  · have hsecond : ¬entries[j + 1].parent = name := fun heq => hne (hfirst.trans heq.symm)
    simp [hfirst, hsecond]
  · simp [List.filter_cons, hfirst]

/-! ## One entry sinks -/

/-- One step of the entry that sinks, said of the list of entries. -/
theorem sink_succ {entries : Vector Entry n} {j : Nat} (h : j + 1 < n) {left rest : List Entry}
    {neighbour moving : Entry} (hentries : entries.toList = left ++ neighbour :: moving :: rest)
    (hleft : left.length = j) :
    ∃ swapped : Vector Entry n, swapped.toList = left ++ moving :: neighbour :: rest ∧
      sink entries (j + 1) h =
        if neighbour.parent > moving.parent then sink swapped j (by omega) else entries := by
  obtain ⟨before, after, hbefore, hlist, hswapped⟩ := exists_toList_swap entries h
  obtain ⟨rfl, hpair⟩ := List.append_inj (hentries.symm.trans hlist) (hleft.trans hbefore.symm)
  obtain ⟨hneighbour, hpair⟩ := List.cons.inj hpair
  obtain ⟨hmoving, rfl⟩ := List.cons.inj hpair
  refine ⟨entries.swap j (j + 1), by rw [hswapped, hneighbour, hmoving], ?_⟩
  rw [sink, hneighbour, hmoving]

/-- An entry passes only entries under other parents. -/
theorem filter_sink (entries : Vector Entry n) (j : Nat) (h : j < n) (name : String) :
    (sink entries j h).toList.filter (fun e => e.parent == name) =
      entries.toList.filter (fun e => e.parent == name) := by
  induction j generalizing entries with
  | zero => rfl
  | succ j ih =>
      rw [sink]
      split
      next hgreater => rw [ih, filter_swap entries h (ne_of_gt hgreater)]
      next => rfl

/-- Entries in the order of their parents' names. -/
def Ascending (entries : List Entry) : Prop :=
  entries.Pairwise fun a b => a.parent ≤ b.parent

/-- An entry may rest between entries with smaller and with greater names. -/
theorem ascending_insert {left passed : List Entry} {moving : Entry}
    (hsorted : Ascending (left ++ passed)) (hleft : ∀ e ∈ left, e.parent ≤ moving.parent)
    (hpassed : ∀ e ∈ passed, moving.parent ≤ e.parent) : Ascending (left ++ moving :: passed) := by
  obtain ⟨hfront, hback, hcross⟩ := List.pairwise_append.mp hsorted
  refine List.pairwise_append.mpr ⟨hfront, List.pairwise_cons.mpr ⟨hpassed, hback⟩, ?_⟩
  intro a ha
  exact List.forall_mem_cons.mpr ⟨hleft a ha, hcross a ha⟩

/-- The entry in motion has passed {lit}`passed`, whose parents all have greater names, and
{lit}`left` is still before it; without it the two are in order.  Where it comes to rest, all
are. -/
theorem sink_sorted (entries : Vector Entry n) (j : Nat) (h : j < n) {left passed rest : List Entry}
    {moving : Entry} (hentries : entries.toList = left ++ moving :: (passed ++ rest))
    (hleft : left.length = j) (hsorted : Ascending (left ++ passed))
    (hpassed : ∀ e ∈ passed, moving.parent < e.parent) :
    ∃ sorted, (sink entries j h).toList = sorted ++ rest ∧ Ascending sorted ∧
      sorted.length = left.length + 1 + passed.length := by
  have hpassedLe : ∀ e ∈ passed, moving.parent ≤ e.parent := fun e he => le_of_lt (hpassed e he)
  induction j generalizing entries left passed with
  | zero =>
      obtain rfl := List.length_eq_zero_iff.mp hleft
      refine ⟨moving :: passed, by rw [sink]; simpa using hentries, ?_, by simp; omega⟩
      exact ascending_insert hsorted (by simp) hpassedLe
  | succ j ih =>
      obtain ⟨front, neighbour, rfl⟩ : ∃ front neighbour, left = front ++ [neighbour] := by
        rcases List.eq_nil_or_concat left with rfl | ⟨front, neighbour, rfl⟩
        · cases hleft
        · exact ⟨front, neighbour, List.concat_eq_append⟩
      have hfront : front.length = j := by simpa using hleft
      have hneighbours : entries.toList = front ++ neighbour :: moving :: (passed ++ rest) := by
        rw [hentries, List.append_assoc]
        rfl
      obtain ⟨swapped, hswapped, hstep⟩ := sink_succ h hneighbours hfront
      have hbehind : Ascending (front ++ neighbour :: passed) := by
        rwa [List.append_assoc] at hsorted
      rw [hstep]
      split
      next hgreater =>
        have hmore : ∀ e ∈ neighbour :: passed, moving.parent < e.parent :=
          List.forall_mem_cons.mpr ⟨hgreater, hpassed⟩
        obtain ⟨sorted, hsink, hascending, hlength⟩ := ih swapped (by omega) hswapped hfront
          hbehind hmore fun e he => le_of_lt (hmore e he)
        refine ⟨sorted, hsink, hascending, ?_⟩
        rw [hlength, List.length_append, List.length_singleton, List.length_cons]
        omega
      next hle =>
        -- the neighbour is not greater, and nothing before it is greater than the neighbour
        have hsmaller : ∀ e ∈ front ++ [neighbour], e.parent ≤ moving.parent := by
          have hneighbour := not_lt.mp hle
          have hcross := (List.pairwise_append.mp hbehind).2.2
          refine List.forall_mem_append.mpr ⟨fun e he => ?_, by simpa using hneighbour⟩
          exact le_trans (hcross e he _ List.mem_cons_self) hneighbour
        refine ⟨front ++ [neighbour] ++ moving :: passed, ?_, ?_, ?_⟩
        · rw [hentries, List.append_assoc (front ++ [neighbour]), List.cons_append]
        · exact ascending_insert hsorted hsmaller hpassedLe
        · rw [List.length_append, List.length_cons]
          omega

/-! ## All entries -/

theorem filter_sinkFrom (i : Nat) (entries : Vector Entry n) (name : String) :
    (sinkFrom i entries).toList.filter (fun e => e.parent == name) =
      entries.toList.filter (fun e => e.parent == name) := by
  fun_induction sinkFrom i entries with
  | case1 i entries h ih => rw [ih, filter_sink]
  | case2 => rfl

/-- Sorting in place keeps the order of entries with one parent. -/
theorem filter_sortInPlace (entries : Vector Entry n) (name : String) :
    (sortInPlace entries).toList.filter (fun e => e.parent == name) =
      entries.toList.filter (fun e => e.parent == name) :=
  filter_sinkFrom 1 entries name

/-- When the entries before the next to sink are in order, all are in the end. -/
theorem ascending_sinkFrom (i : Nat) (entries : Vector Entry n)
    (hsorted : Ascending (entries.toList.take i)) : Ascending (sinkFrom i entries).toList := by
  fun_induction sinkFrom i entries with
  | case1 i entries h ih =>
      apply ih
      have hmem : i < entries.toList.length := by rwa [Vector.length_toList]
      have hentries : entries.toList =
          entries.toList.take i ++ entries.toList[i] :: ([] ++ entries.toList.drop (i + 1)) := by
        rw [List.nil_append, ← List.drop_eq_getElem_cons hmem, List.take_append_drop]
      obtain ⟨sorted, hsink, hascending, hlength⟩ := sink_sorted entries i h hentries
        (by rw [List.length_take]; omega) (by rwa [List.append_nil]) (by simp)
      have htake : (sink entries i h).toList.take (i + 1) = sorted := by
        rw [hsink]
        refine List.take_left' ?_
        rw [hlength, List.length_take, List.length_nil]
        omega
      rwa [htake]
  | case2 i entries h =>
      rwa [List.take_of_length_le (by rw [Vector.length_toList]; omega)] at hsorted

theorem ascending_sortInPlace (entries : Vector Entry n) :
    Ascending (sortInPlace entries).toList := by
  refine ascending_sinkFrom 1 entries ?_
  cases entries.toList with
  | nil => exact List.Pairwise.nil
  | cons first rest => exact List.pairwise_singleton _ _

/-! ## One sorted list -/

/-- Lists in order with the same entries under each name are the same. -/
theorem eq_of_ascending {first second : List Entry} (hfirst : Ascending first)
    (hsecond : Ascending second)
    (hsame : ∀ name, first.filter (fun e => e.parent == name) =
      second.filter (fun e => e.parent == name)) : first = second := by
  induction first generalizing second with
  | nil =>
      cases second with
      | nil => rfl
      | cons b second =>
          have hnone := hsame b.parent
          simp at hnone
  | cons a first ih =>
      have hmem : ∀ {e : Entry}, e ∈ a :: first ↔ e ∈ second := by
        intro e
        have hfilter : e ∈ (a :: first).filter (fun other => other.parent == e.parent) ↔
            e ∈ second.filter (fun other => other.parent == e.parent) := by
          rw [hsame]
        simpa only [List.mem_filter, beq_self_eq_true, and_true] using hfilter
      cases second with
      | nil => exact absurd (hmem.mp List.mem_cons_self) List.not_mem_nil
      | cons b second =>
          obtain ⟨hleast, hrest⟩ := List.pairwise_cons.mp hfirst
          obtain ⟨hleast', hrest'⟩ := List.pairwise_cons.mp hsecond
          have hle : a.parent ≤ b.parent := by
            rcases List.mem_cons.mp (hmem.mpr (List.mem_cons_self (a := b))) with rfl | hb
            · exact le_refl _
            · exact hleast b hb
          have hge : b.parent ≤ a.parent := by
            rcases List.mem_cons.mp (hmem.mp (List.mem_cons_self (a := a))) with rfl | ha
            · exact le_refl _
            · exact hleast' a ha
          have hparent : b.parent = a.parent := le_antisymm hge hle
          have hheads := hsame a.parent
          simp only [List.filter_cons, hparent, beq_self_eq_true, if_true] at hheads
          obtain ⟨rfl, -⟩ := List.cons.inj hheads
          have htails : ∀ name, first.filter (fun e => e.parent == name) =
              second.filter (fun e => e.parent == name) := by
            intro name
            have hname := hsame name
            rw [List.filter_cons, List.filter_cons] at hname
            split at hname
            · exact (List.cons.inj hname).2
            · exact hname
          exact congrArg (a :: ·) (ih hrest hrest' htails)

/-- Sorting in place gives the list that sorting recursively gives. -/
theorem toList_sortInPlace (entries : Vector Entry n) :
    (sortInPlace entries).toList = sortByParent entries.toList := by
  refine eq_of_ascending (ascending_sortInPlace entries) (pairwise_sortByParent _) fun name => ?_
  rw [filter_sortInPlace, filter_sortByParent]

/-! ## The stable sort -/

/-- Sorting entries by their parents, recursively or in the array that holds them, gives the
same entries in another order.  The names of their parents do not descend in byte order, and
the entries under one name are those of before in their order. -/
theorem sortByParent_stable (entries : List Entry) :
    (sortByParent entries).Perm entries ∧
      (sortByParent entries).Pairwise (fun first second =>
        Text.bytes first.parent ≤ Text.bytes second.parent) ∧
      (∀ name, (sortByParent entries).filter (fun e => e.parent == name) =
        entries.filter (fun e => e.parent == name)) ∧
      (sortInPlace entries.toArray.toVector).toList = sortByParent entries := by
  refine ⟨sortByParent_perm entries, ?_, filter_sortByParent entries, ?_⟩
  · refine (pairwise_sortByParent entries).imp fun hle => ?_
    exact List.not_lt.mp (mt Text.bytes_lt_bytes.mp (not_lt.mpr hle))
  · exact toList_sortInPlace _

end CommandSet
