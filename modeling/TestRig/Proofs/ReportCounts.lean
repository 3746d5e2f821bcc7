import Mathlib
import TestRig.Report.Counts

/-!
# What counts tell

Each report is counted once by its severity and once by its category, and the categories are kept
in order, so that each has one count. Main statement: counts that began empty tell of every severity
and of every category how many reports there were, and both sorts of counts sum up to the number of
all reports.
-/

namespace TestRig

namespace Counts

variable {c : Counts} {rs : List Report} {entries : List (String × Nat)}

/-! ## Entries of categories -/

/-- An entry of a category is older, or it is that of the report. -/
theorem key_of_mem_bump {id : String} {e : String × Nat} (mem : e ∈ bump id entries) :
    e.1 = id ∨ ∃ e' ∈ entries, e'.1 = e.1 := by
  induction entries with
  | nil =>
    rw [bump, List.mem_singleton] at mem
    exact .inl (congrArg Prod.fst mem)
  | cons entry rest ih =>
    obtain ⟨k, n⟩ := entry
    rw [bump] at mem
    split at mem
    · rcases List.mem_cons.mp mem with rfl | older
      · exact .inr ⟨(k, n), List.mem_cons_self, rfl⟩
      · exact .inr ⟨e, List.mem_cons_of_mem _ older, rfl⟩
    · split at mem
      · rcases List.mem_cons.mp mem with rfl | older
        · exact .inl rfl
        · exact .inr ⟨e, older, rfl⟩
      · rcases List.mem_cons.mp mem with rfl | later
        · exact .inr ⟨(k, n), List.mem_cons_self, rfl⟩
        · rcases ih later with own | ⟨e', older, same⟩
          · exact .inl own
          · exact .inr ⟨e', List.mem_cons_of_mem _ older, same⟩

/-- Categories stay in order. -/
theorem pairwise_bump (id : String) (sorted : entries.Pairwise fun e e' => e.1 < e'.1) :
    (bump id entries).Pairwise fun e e' => e.1 < e'.1 := by
  induction entries with
  | nil => exact List.pairwise_singleton _ _
  | cons entry rest ih =>
    obtain ⟨k, n⟩ := entry
    obtain ⟨first, others⟩ := List.pairwise_cons.mp sorted
    rw [bump]
    split
    · exact List.pairwise_cons.mpr ⟨first, others⟩
    · next other =>
      split
      · next before =>
        refine List.pairwise_cons.mpr ⟨fun e mem => ?_, sorted⟩
        rcases List.mem_cons.mp mem with rfl | later
        · exact before
        · exact lt_trans before (first e later)
      · next notBefore =>
        refine List.pairwise_cons.mpr ⟨fun e mem => ?_, ih others⟩
        rcases key_of_mem_bump mem with own | ⟨e', older, same⟩
        · rw [own]
          exact lt_of_le_of_ne (not_lt.mp notBefore) (Ne.symm other)
        · rw [← same]
          exact first e' older

/-- The count of a category among entries of which it may be the first. -/
theorem getD_lookup_cons (e : String × Nat) (entries : List (String × Nat)) (k : String) :
    ((e :: entries).lookup k).getD 0 = if k = e.1 then e.2 else (entries.lookup k).getD 0 := by
  rw [List.lookup_cons]
  by_cases here : k = e.1
  · rw [if_pos here, beq_iff_eq.mpr here]
    rfl
  · rw [if_neg here, beq_eq_false_iff_ne.mpr here]

/-- One more report of a category is one more of that category, and of no other. -/
theorem lookup_bump (id k : String) (sorted : entries.Pairwise fun e e' => e.1 < e'.1) :
    ((bump id entries).lookup k).getD 0 = (entries.lookup k).getD 0 + if k = id then 1 else 0 := by
  induction entries with
  | nil =>
    rw [bump, getD_lookup_cons, List.lookup_nil, Option.getD_none, Nat.zero_add]
  | cons entry rest ih =>
    obtain ⟨k', n⟩ := entry
    obtain ⟨first, others⟩ := List.pairwise_cons.mp sorted
    rw [bump]
    split
    · next own =>
      rw [getD_lookup_cons, getD_lookup_cons, own]
      split <;> rfl
    · next other =>
      split
      · next before =>
        rw [getD_lookup_cons]
        by_cases own : k = id
        · -- a category that comes before all that there are is a new one
          subst own
          have new : ((k', n) :: rest).lookup k = none := by
            rw [List.lookup_eq_none_iff]
            intro e mem
            have later : k < e.1 := by
              rcases List.mem_cons.mp mem with rfl | later
              · exact before
              · exact lt_trans before (first e later)
            exact bne_iff_ne.mpr (ne_of_lt later)
          rw [new, if_pos rfl, if_pos rfl, Option.getD_none]
        · rw [if_neg own, if_neg own, Nat.add_zero]
      · rw [getD_lookup_cons, getD_lookup_cons, ih others]
        by_cases here : k = k'
        · have different : k ≠ id := fun own => other (own.symm.trans here)
          rw [if_pos here, if_pos here, if_neg different, Nat.add_zero]
        · rw [if_neg here, if_neg here]

theorem sum_bump (id : String) (entries : List (String × Nat)) :
    ((bump id entries).map (·.2)).sum = (entries.map (·.2)).sum + 1 := by
  induction entries with
  | nil => rfl
  | cons entry rest ih =>
    obtain ⟨k, n⟩ := entry
    rw [bump]
    split
    · simp only [List.map_cons, List.sum_cons]
      omega
    · split
      · simp only [List.map_cons, List.sum_cons]
        omega
      · simp only [List.map_cons, List.sum_cons, ih]
        omega

/-! ## Reports -/

/-- Counts tell of reports: how many there are of each severity and of each category. -/
structure Tell (c : Counts) (rs : List Report) : Prop where
  severity : ∀ s, c.severity s = rs.countP (·.severity = s)
  id : ∀ id, c.id id = rs.countP (·.id = id)
  sorted : c.byId.Pairwise fun e e' => e.1 < e'.1
  total : (c.byId.map (·.2)).sum = rs.length

theorem tell_nil : Tell {} [] := by
  refine ⟨fun s => ?_, fun _ => rfl, List.Pairwise.nil, rfl⟩
  cases s <;> rfl

/-- Counts tell of one report more. -/
theorem Tell.add (tell : c.Tell rs) (r : Report) : (c.add r).Tell (rs ++ [r]) := by
  have byId : (c.add r).byId = bump r.id c.byId := by
    unfold Counts.add addSeverity
    cases r.severity <;> rfl
  constructor
  · intro s
    rw [List.countP_append, List.countP_singleton, ← tell.severity]
    unfold Counts.add addSeverity Counts.severity
    cases r.severity <;> cases s <;> rfl
  · intro id
    rw [List.countP_append, List.countP_singleton, ← tell.id, Counts.id, byId,
      lookup_bump r.id id tell.sorted]
    simp only [decide_eq_true_eq, eq_comm (a := r.id)]
    rfl
  · rw [byId]
    exact pairwise_bump r.id tell.sorted
  · rw [byId, sum_bump, tell.total, List.length_append, List.length_singleton]

/-- **The counts of severities sum up** to the number of reports. -/
theorem Tell.sum_severity (tell : c.Tell rs) : (Severity.all.map c.severity).sum = rs.length := by
  have each : (Severity.all.map c.severity).sum =
      (Severity.all.map fun s => rs.countP (·.severity = s)).sum := by
    rw [List.map_congr_left fun s _ => tell.severity s]
  rw [each]
  clear each tell
  induction rs with
  | nil => rfl
  | cons r rs ih =>
    -- the report is counted with one severity
    have one : (Severity.all.map fun s => if r.severity = s then 1 else 0).sum = 1 := by
      cases r.severity <;> rfl
    simp only [List.countP_cons, decide_eq_true_eq]
    rw [List.sum_map_add, ih, one, List.length_cons]

end Counts

end TestRig
