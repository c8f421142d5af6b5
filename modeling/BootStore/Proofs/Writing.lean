import BootStore.Proofs.Window

/-!
# Writes to a memory device

What a series of writes leaves: every write before the failing one is stored, the failing one leaves
a part of its data, and the rest is never called (`Memory.writeAll_cases`).
-/
namespace BootStore

def WriteOutcome.leave (o : WriteOutcome) (contents : Bytes) (w : Write) : Bytes :=
  match o with
  | stored => Bytes.overwrite contents w.offset w.data
  | torn n => Memory.storing contents w n
  | refused => contents

def Write.Within (w : Write) (offset length : Nat) : Prop :=
  offset ≤ w.offset ∧ w.offset + w.data.length ≤ offset + length

def Write.whole (w : Write) : Access := .write w .stored

def Access.write? : Access → Option (Write × WriteOutcome)
  | .read .. => none
  | .write w o => some (w, o)

def Access.outcome? : Access → Option WriteOutcome
  | .read .. => none
  | .write _ o => some o

namespace WriteOutcome

def storesAny : WriteOutcome → Bool
  | stored => true
  | torn n => n != 0
  | refused => false

theorem leave_of_storesAny {o : WriteOutcome} (ho : o.storesAny = false) (contents : Bytes)
    (w : Write) : o.leave contents w = contents := by
  cases o with
  | stored => cases ho
  | torn n =>
    have hn : n = 0 := by simpa [storesAny] using ho
    exact if_pos hn
  | refused => rfl

/-- A failing write stores some front part of its data, if anything. -/
theorem leave_cases (o : WriteOutcome) (contents : Bytes) (w : Write) :
    o.leave contents w = contents ∨
      ∃ n, o.leave contents w = Bytes.overwrite contents w.offset (w.data.take n) := by
  cases o with
  | stored => exact Or.inr ⟨w.data.length, by rw [List.take_length]; rfl⟩
  | torn n =>
    by_cases hn : n = 0
    · exact Or.inl (if_pos hn)
    · exact Or.inr ⟨n, if_neg hn⟩
  | refused => exact Or.inl rfl

theorem length_le_leave (o : WriteOutcome) (contents : Bytes) (w : Write) :
    contents.length ≤ (o.leave contents w).length := by
  rcases o.leave_cases contents w with h | ⟨n, h⟩
  · exact Nat.le_of_eq (congrArg List.length h.symm)
  · rw [h, Bytes.length_overwrite]
    exact Nat.le_max_left _ _

theorem length_leave_le (o : WriteOutcome) (contents : Bytes) (w : Write) :
    (o.leave contents w).length ≤ max contents.length (w.offset + w.data.length) := by
  rcases o.leave_cases contents w with h | ⟨n, h⟩
  · rw [h]
    exact Nat.le_max_left _ _
  · rw [h, Bytes.length_overwrite, List.length_take]
    omega

theorem window_leave_of_disjoint (o : WriteOutcome) (contents : Bytes) (w : Write)
    {start length : Nat}
    (h : w.offset + w.data.length ≤ start ∨ start + length ≤ w.offset) :
    Bytes.window (o.leave contents w) start length = Bytes.window contents start length := by
  rcases o.leave_cases contents w with hl | ⟨n, hl⟩
  · rw [hl]
  · rw [hl]
    apply Bytes.window_overwrite_of_disjoint
    rw [List.length_take]
    omega

end WriteOutcome

namespace Memory

theorem bind_apply {α β : Type} (x : StateM Memory α) (f : α → StateM Memory β) (d : Memory) :
    (x >>= f) d = f (x d).1 (x d).2 := rfl

theorem pure_apply {α : Type} (a : α) (d : Memory) : (pure a : StateM Memory α) d = (a, d) := rfl

def written (contents : Bytes) (ws : List Write) : Bytes :=
  ws.foldl (fun c w => Bytes.overwrite c w.offset w.data) contents

def since (before after : Memory) : List Access := after.log.drop before.log.length

theorem since_of_log_eq {before after : Memory} {calls : List Access}
    (h : after.log = before.log ++ calls) : before.since after = calls := by
  rw [since, h]
  exact List.drop_left' rfl

theorem since_self (d : Memory) : d.since d = [] := List.drop_length

theorem write_cases (d : Memory) {w : Write} (hw : w.data ≠ []) :
    ∃ o, (d.write w).2.contents = o.leave d.contents w ∧
      (d.write w).2.log = d.log ++ [.write w o] ∧
      ((d.write w).1 = .ok () ∧ o = .stored ∨ ∃ e, (d.write w).1 = .error e ∧ o ≠ .stored) := by
  by_cases hfull : d.limit < w.offset + w.data.length
  · refine ⟨.refused, ?_, ?_, Or.inr ⟨.deviceFull, ?_, fun h => by cases h⟩⟩ <;>
      simp [write, hfull, WriteOutcome.leave]
  cases htear : d.plan.writeTears d.writes with
  | none =>
    refine ⟨.stored, ?_, ?_, Or.inl ⟨?_, rfl⟩⟩ <;> simp [write, hfull, htear, WriteOutcome.leave]
  | some n =>
    -- the log bounds the stored part by the length of the data
    have hpart : storing d.contents w n = storing d.contents w (min n w.data.length) := by
      have hpos : 0 < w.data.length := List.length_pos_iff.2 hw
      by_cases hn : n = 0
      · simp [storing, hn]
      · rw [storing, storing, if_neg hn, if_neg (by omega), List.take_eq_take_min]
    refine ⟨.torn (min n w.data.length), ?_, ?_, Or.inr ⟨.writeFault, ?_, fun h => by cases h⟩⟩
    · simp [write, hfull, htear, WriteOutcome.leave, hpart]
    · simp [write, hfull, htear]
    · simp [write, hfull, htear]

theorem writeAll_cons (w : Write) (rest : List Write) (d : Memory) :
    (BlockDevice.writeAll (w :: rest) : StateM Memory _) d =
      match (d.write w).1 with
      | .error e => (.error e, (d.write w).2)
      | .ok () => (BlockDevice.writeAll rest : StateM Memory _) (d.write w).2 := by
  simp only [BlockDevice.writeAll, bind_apply, writeRegion_apply]
  cases (d.write w).1 <;> rfl

theorem writeAll_append (done rest : List Write) (d : Memory) :
    (BlockDevice.writeAll (done ++ rest) : StateM Memory _) d =
      let first := (BlockDevice.writeAll done : StateM Memory _) d
      match first.1 with
      | .error e => (.error e, first.2)
      | .ok () => (BlockDevice.writeAll rest : StateM Memory _) first.2 := by
  induction done generalizing d with
  | nil => rfl
  | cons w done ih =>
    rw [List.cons_append, writeAll_cons, writeAll_cons]
    cases (d.write w).1 with
    | error e => rfl
    | ok => exact ih (d.write w).2

theorem writeAll_cases (ws : List Write) (hne : ∀ w ∈ ws, w.data ≠ []) (d : Memory) :
    let out := (BlockDevice.writeAll ws : StateM Memory _) d
    (out.1 = .ok () ∧ out.2.contents = written d.contents ws ∧
      out.2.log = d.log ++ ws.map Write.whole) ∨
    ∃ e done w rest o, ws = done ++ w :: rest ∧ out.1 = .error e ∧ o ≠ .stored ∧
      out.2.contents = o.leave (written d.contents done) w ∧
      out.2.log = d.log ++ (done.map Write.whole ++ [.write w o]) := by
  induction ws generalizing d with
  | nil => exact Or.inl ⟨rfl, rfl, (List.append_nil _).symm⟩
  | cons w ws ih =>
    obtain ⟨o, hcontents, hlog, ⟨hok, ho⟩ | ⟨e, herr, ho⟩⟩ :=
      d.write_cases (hne w List.mem_cons_self)
    · subst ho
      rw [writeAll_cons, hok]
      rcases ih (fun v hv => hne v (List.mem_cons_of_mem _ hv)) (d.write w).2 with
        ⟨hr, hc, hl⟩ | ⟨e, done, v, rest, o, hws, hr, ho, hc, hl⟩
      · refine Or.inl ⟨hr, ?_, ?_⟩
        · rw [hc, hcontents]
          rfl
        · rw [hl, hlog, List.append_assoc]
          rfl
      · refine Or.inr ⟨e, w :: done, v, rest, o, by rw [hws]; rfl, hr, ho, ?_, ?_⟩
        · rw [hc, hcontents]
          rfl
        · rw [hl, hlog, List.append_assoc]
          rfl
    · rw [writeAll_cons, herr]
      exact Or.inr ⟨e, [], w, ws, o, rfl, rfl, ho, hcontents, hlog⟩

theorem writeAll_ok_of_stored {ws : List Write} (hne : ∀ w ∈ ws, w.data ≠ []) {d : Memory}
    (hstored : ∀ w o, .write w o ∈ d.since ((BlockDevice.writeAll ws : StateM Memory _) d).2 →
      o = .stored) :
    ((BlockDevice.writeAll ws : StateM Memory _) d).1 = .ok () := by
  rcases writeAll_cases ws hne d with ⟨hok, -⟩ | ⟨e, done, w, rest, o, -, -, ho, -, hlog⟩
  · exact hok
  · rw [since_of_log_eq hlog] at hstored
    exact absurd (hstored w o (List.mem_append_right _ List.mem_cons_self)) ho

theorem writeAll_log (ws : List Write) (d : Memory) :
    ∃ calls, ((BlockDevice.writeAll ws : StateM Memory _) d).2.log = d.log ++ calls ∧
      (ws ≠ [] → ∃ w o, .write w o ∈ calls) := by
  induction ws generalizing d with
  | nil => exact ⟨[], (List.append_nil _).symm, fun h => absurd rfl h⟩
  | cons w ws ih =>
    obtain ⟨o, hlog⟩ := d.log_write w
    rw [writeAll_cons]
    cases (d.write w).1 with
    | error e => exact ⟨_, hlog, fun _ => ⟨w, o, List.mem_cons_self⟩⟩
    | ok =>
      obtain ⟨calls, hrest, -⟩ := ih (d.write w).2
      refine ⟨.write w o :: calls, ?_, fun _ => ⟨w, o, List.mem_cons_self⟩⟩
      show ((BlockDevice.writeAll ws : StateM Memory _) (d.write w).2).2.log = _
      rw [hrest, hlog, List.append_assoc]
      rfl

theorem written_append (contents : Bytes) (done rest : List Write) :
    written contents (done ++ rest) = written (written contents done) rest := List.foldl_append

/-- What holds before a series of writes, and is kept by each of them however it ends, holds after
it. -/
theorem written_induction {P : Bytes → Prop} {ws : List Write}
    (hstep : ∀ w ∈ ws, ∀ c o, P c → P (WriteOutcome.leave o c w)) {contents : Bytes}
    (h : P contents) : P (written contents ws) := by
  induction ws generalizing contents with
  | nil => exact h
  | cons w ws ih =>
    exact ih (fun v hv => hstep v (List.mem_cons_of_mem _ hv))
      (hstep w List.mem_cons_self contents .stored h)

theorem writeAll_induction {P : Bytes → Prop} {ws : List Write} (hne : ∀ w ∈ ws, w.data ≠ [])
    (hstep : ∀ w ∈ ws, ∀ c o, P c → P (WriteOutcome.leave o c w)) {d : Memory}
    (h : P d.contents) : P ((BlockDevice.writeAll ws : StateM Memory _) d).2.contents := by
  rcases writeAll_cases ws hne d with ⟨-, hc, -⟩ | ⟨-, done, w, rest, o, rfl, -, -, hc, -⟩
  · rw [hc]
    exact written_induction hstep h
  · rw [hc]
    refine hstep w (by simp) _ o (written_induction (fun v hv => hstep v ?_) h)
    exact List.mem_append_left _ hv

theorem write_keeps (d : Memory) (w : Write) :
    (d.write w).2.limit = d.limit ∧ (d.write w).2.plan = d.plan := by
  unfold write
  split
  · exact ⟨rfl, rfl⟩
  · split <;> exact ⟨rfl, rfl⟩

theorem length_le_write (d : Memory) (w : Write) :
    d.contents.length ≤ (d.write w).2.contents.length := by
  unfold write
  split
  · exact Nat.le_refl _
  · split
    next n _ => exact (WriteOutcome.torn n).length_le_leave d.contents w
    next => exact WriteOutcome.stored.length_le_leave d.contents w

theorem fits_of_write_ok {d : Memory} {w : Write} (h : (d.write w).1 = .ok ()) :
    w.offset + w.data.length ≤ d.limit := by
  unfold write at h
  split at h
  · cases h
  next hroom => exact Nat.le_of_not_lt hroom

theorem write_ok_of_fits {d : Memory} {w : Write} (hplan : ∀ n, d.plan.writeTears n = none)
    (hfits : w.offset + w.data.length ≤ d.limit) : (d.write w).1 = .ok () := by
  unfold write
  rw [if_neg (Nat.not_lt.2 hfits), hplan]

theorem writeAll_fits {ws : List Write} {d : Memory}
    (h : ((BlockDevice.writeAll ws : StateM Memory _) d).1 = .ok ()) :
    ∀ w ∈ ws, w.offset + w.data.length ≤ d.limit := by
  induction ws generalizing d with
  | nil => exact nofun
  | cons w ws ih =>
    rw [writeAll_cons] at h
    cases hw : (d.write w).1 with
    | error e =>
      rw [hw] at h
      cases h
    | ok =>
      rw [hw] at h
      intro v hv
      rcases List.mem_cons.1 hv with rfl | hv
      · exact fits_of_write_ok hw
      · rw [← (d.write_keeps w).1]
        exact ih h v hv

theorem writeAll_keeps (ws : List Write) (d : Memory) :
    ((BlockDevice.writeAll ws : StateM Memory _) d).2.limit = d.limit ∧
      ((BlockDevice.writeAll ws : StateM Memory _) d).2.plan = d.plan := by
  induction ws generalizing d with
  | nil => exact ⟨rfl, rfl⟩
  | cons w ws ih =>
    obtain ⟨hlimit, hplan⟩ := d.write_keeps w
    rw [writeAll_cons]
    cases (d.write w).1 with
    | error e => exact ⟨hlimit, hplan⟩
    | ok => exact ⟨(ih _).1.trans hlimit, (ih _).2.trans hplan⟩

theorem length_le_writeAll (ws : List Write) (d : Memory) :
    d.contents.length ≤
      ((BlockDevice.writeAll ws : StateM Memory _) d).2.contents.length := by
  induction ws generalizing d with
  | nil => exact Nat.le_refl _
  | cons w ws ih =>
    rw [writeAll_cons]
    cases (d.write w).1 with
    | error e => exact d.length_le_write w
    | ok => exact Nat.le_trans (d.length_le_write w) (ih _)

theorem writeAll_ok_of_fits {ws : List Write} {d : Memory}
    (hplan : ∀ n, d.plan.writeTears n = none)
    (hfits : ∀ w ∈ ws, w.offset + w.data.length ≤ d.limit) :
    ((BlockDevice.writeAll ws : StateM Memory _) d).1 = .ok () := by
  induction ws generalizing d with
  | nil => rfl
  | cons w ws ih =>
    obtain ⟨hlimit, hkept⟩ := d.write_keeps w
    rw [writeAll_cons, write_ok_of_fits hplan (hfits w List.mem_cons_self)]
    apply ih
    · rw [hkept]
      exact hplan
    · intro v hv
      rw [hlimit]
      exact hfits v (List.mem_cons_of_mem _ hv)

end Memory

end BootStore
