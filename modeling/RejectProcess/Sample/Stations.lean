import RejectProcess.Sample.RejectRefines

/-!
# The two stations do not disturb each other

The stations share the buffers, the receive task and the configuration.  Whatever is left out at
one station (its samples, its triggers and the steps of its search task) the other one does the
same, as long as the shared buffers have not run out.
-/

namespace RejectProcess

open Lib

/-- The labels that belong to a station. -/
def Label.isOf (m : Station) : Label → Bool
  | .sample r => r.pos == m.pos
  | .kick n _ => n == m
  | .trig n => n == m
  | .reset => false
  | .recv => false

namespace Reject

/-- The receive task is at work on a sample for the station. -/
def Recv.writes (m : Station) : Recv → Bool
  | .produce r => r.pos == m.pos
  | .link r => r.pos == m.pos
  | _ => false

/-- The room that the receive task has taken for a sample of the station. -/
def Recv.taken (m : Station) : Recv → ℕ
  | .link r => if r.pos = m.pos then 1 else 0
  | _ => 0

/-- The machine without a station.  The counter belongs to station 1. -/
def without (m : Station) (v : Reject) : Reject where
  waiting := Function.update v.waiting m []
  room := v.room + (v.waiting m).length + v.recv.taken m
  count := match m with
    | .one => 0
    | .two => v.count
  mbx := Function.update v.mbx m []
  recv := if v.recv.writes m then .idle else v.recv
  trig := Function.update v.trig m .idle
  fifo := v.fifo.filter fun c => c.1 != m.comFifoReg
  exited := v.exited

/-- Station 2 does not count. -/
def NoCount (v : Reject) : Prop :=
  (∀ code cur, v.trig .two ≠ .counting code cur) ∧ ∀ code, v.trig .two ≠ .counted code

/-- A step that is left out with the station. -/
def leftOut (m : Station) (v : Reject) (l : Label) : Bool :=
  l.isOf m || (l == .recv && v.recv.writes m)

variable {cfg : SysConfig} {m n : Station} {v v' : Reject} {l : Label}

/-! ## The search tasks -/

lemma without_setTrig_self (pc : Trig) : (v.setTrig m pc).without m = v.without m := by
  ext1
  case trig => exact Function.update_idem ..
  all_goals rfl

lemma without_setTrig (h : n ≠ m) (pc : Trig) :
    (v.setTrig n pc).without m = (v.without m).setTrig n pc := by
  ext1
  case trig => exact Function.update_comm h pc .idle v.trig
  all_goals rfl

lemma comFifoReg_ne (h : n ≠ m) : n.comFifoReg ≠ m.comFifoReg := by
  cases n <;> cases m <;> first | exact absurd rfl h | decide

/-- What the search task of the station does is not seen without it. -/
lemma without_stepTrig_self (hno : v.NoCount) (hs : v.stepTrig cfg m = some v') :
    v'.without m = v.without m := by
  rw [stepTrig] at hs
  cases hpc : v.trig m with
  | idle =>
    cases hm : v.mbx m with
    | nil => simp [hpc, hm] at hs
    | cons code rest =>
      obtain rfl : v.pend m code rest = v' := by simpa [hpc, hm] using hs
      ext1
      case trig => exact Function.update_idem ..
      case mbx => exact Function.update_idem ..
      all_goals rfl
  | pended code =>
    cases m with
    | one =>
      obtain rfl : _ = v' := by simpa [hpc] using hs
      exact without_setTrig_self _
    | two =>
      obtain rfl : _ = v' := by simpa [hpc] using hs
      exact without_setTrig_self _
  | counting code cur =>
    obtain rfl : _ = v' := by simpa [hpc] using hs
    cases m with
    | one =>
      ext1
      case trig => exact Function.update_idem ..
      all_goals rfl
    | two => exact absurd hpc (hno.1 code cur)
  | counted code =>
    by_cases hk : cfg.kickMode = 0
    · obtain rfl : _ = v' := by simpa [hpc, hk] using hs
      exact without_setTrig_self _
    · obtain rfl : _ = v' := by simpa [hpc, hk] using hs
      exact without_setTrig_self _
  | searching q =>
    obtain rfl : v.search cfg m q = v' := by simpa [hpc] using hs
    rw [search]
    split
    case isFalse => exact without_setTrig_self _
    case isTrue hany =>
      -- the room of the sample that is taken is counted as free without the station
      have hlen : ((v.waiting m).eraseP (q.test cfg m)).length + 1 = (v.waiting m).length := by
        obtain ⟨r, hr, ht⟩ := List.any_eq_true.1 hany
        have hpos := List.length_pos_of_mem hr
        rw [List.length_eraseP_of_mem hr ht]
        omega
      ext1
      case trig => exact Function.update_idem ..
      case waiting => exact Function.update_idem ..
      case room =>
        change v.room + 1 + (Function.update v.waiting m _ m).length + _ = v.room + _ + _
        rw [Function.update_self]
        change v.room + 1 + _ + v.recv.taken m = v.room + _ + v.recv.taken m
        omega
      all_goals rfl
  | searched found =>
    obtain rfl : v.command m found = v' := by simpa [hpc] using hs
    ext1
    case trig => exact Function.update_idem ..
    case fifo =>
      refine (List.filter_append ..).trans ?_
      simp [without]
    all_goals rfl
  | written =>
    obtain rfl : _ = v' := by simpa [hpc] using hs
    exact without_setTrig_self _

/-- The search task of the other station does the same. -/
lemma without_stepTrig (hno : v.NoCount) (h : n ≠ m) :
    (v.stepTrig cfg n).map (without m) = (v.without m).stepTrig cfg n := by
  have htrig : (v.without m).trig n = v.trig n := Function.update_of_ne h ..
  have hmbx : (v.without m).mbx n = v.mbx n := Function.update_of_ne h ..
  have hwait : (v.without m).waiting n = v.waiting n := Function.update_of_ne h ..
  have hcode : ∀ code, (v.without m).wheelCode n code = v.wheelCode n code := by
    intro code
    rw [wheelCode, hmbx, wheelCode]
  rw [stepTrig, stepTrig, htrig]
  cases hpc : v.trig n with
  | idle =>
    rw [hmbx]
    cases v.mbx n with
    | nil => rfl
    | cons code rest =>
      refine congrArg some ?_
      ext1
      case trig => exact Function.update_comm h _ _ v.trig
      case mbx => exact Function.update_comm h _ _ v.mbx
      all_goals rfl
  | pended code =>
    cases n with
    | one =>
      obtain rfl : m = .two := by
        cases m
        · exact absurd rfl h
        · rfl
      exact congrArg some (without_setTrig h _)
    | two =>
      simp only [hcode]
      exact congrArg some (without_setTrig h _)
  | counting code cur =>
    cases n with
    | two => exact absurd hpc (hno.1 code cur)
    | one =>
      obtain rfl : m = .two := by
        cases m
        · exact absurd rfl h
        · rfl
      refine congrArg some ?_
      ext1
      case trig => exact Function.update_comm h _ _ v.trig
      all_goals rfl
  | counted code =>
    cases n with
    | two => exact absurd hpc (hno.2 code)
    | one =>
      obtain rfl : m = .two := by
        cases m
        · exact absurd rfl h
        · rfl
      simp only [hcode]
      split
      · exact congrArg some (without_setTrig h _)
      · exact congrArg some (without_setTrig h _)
  | searching q =>
    refine congrArg some ?_
    rw [search, search, hwait]
    split
    case isFalse => exact without_setTrig h _
    case isTrue =>
      ext1
      case trig => exact Function.update_comm h _ _ v.trig
      case waiting => exact Function.update_comm h _ _ v.waiting
      case room =>
        change v.room + 1 + (Function.update v.waiting n _ m).length + _ = _
        rw [Function.update_of_ne h.symm]
        change v.room + 1 + _ + v.recv.taken m = v.room + _ + v.recv.taken m + 1
        omega
      all_goals rfl
  | searched found =>
    refine congrArg some ?_
    ext1
    case trig => exact Function.update_comm h _ _ v.trig
    case fifo =>
      refine (List.filter_append ..).trans ?_
      simp [without, command, setTrig, comFifoReg_ne h]
    all_goals rfl
  | written => exact congrArg some (without_setTrig h .idle)

/-! ## The receive task -/

/-- The handling of a sample of the station is not seen without it, unless the room is used up. -/
lemma without_stepRecv_self (hw : v.recv.writes m = true) (hs : v.stepRecv = some v')
    (halive : v'.exited = false) : v'.without m = v.without m := by
  have hrecv : (v.without m).recv = .idle := if_pos hw
  rw [stepRecv] at hs
  cases hpc : v.recv with
  | produce r =>
    have hpos : (r.pos == m.pos) = true := by
      rw [hpc] at hw
      exact hw
    cases hroom : v.room with
    | zero =>
      obtain rfl : { v with recv := .produce r, room := 0, exited := true } = v' := by
        simpa [hpc, hroom] using hs
      cases halive
    | succ room =>
      obtain rfl : { v with room := room, recv := .link r } = v' := by
        simpa [hpc, hroom] using hs
      have hpos' : r.pos = m.pos := by simpa using hpos
      ext1
      case recv => exact (if_pos hpos).trans hrecv.symm
      case room => simp [without, Recv.taken, hpc, hroom, hpos']; omega
      all_goals rfl
  | link r =>
    have hpos : r.pos = m.pos := by simpa [hpc, Recv.writes] using hw
    obtain rfl : v.link r = v' := by simpa [hpc] using hs
    ext1
    case recv => exact hrecv.symm
    case waiting =>
      simp only [without, link, hpos, stationOf_pos]
      exact Function.update_idem ..
    case room => simp [without, link, Recv.taken, hpc, hpos]; omega
    all_goals rfl
  | _ => simp [hpc, Recv.writes] at hw

lemma without_clear (htaken : v.recv.taken m = 0) (n : Station) {pc : Recv}
    (hwrites : pc.writes m = false) (hpc : pc.taken m = 0) :
    (v.clear n pc).without m = (v.without m).clear n pc := by
  have hroom : (v.without m).room = v.room + (v.waiting m).length := by
    change v.room + (v.waiting m).length + v.recv.taken m = _
    rw [htaken, Nat.add_zero]
  ext1
  case recv =>
    change (if pc.writes m = true then _ else pc) = pc
    rw [hwrites]
    rfl
  case waiting =>
    by_cases hn : n = m
    · subst hn
      rfl
    · exact Function.update_comm hn _ _ v.waiting
  case room =>
    change v.room + (v.waiting n).length + (Function.update v.waiting n [] m).length + pc.taken m =
      (v.without m).room + (Function.update v.waiting m [] n).length
    rw [hpc, hroom]
    by_cases hn : n = m
    · subst hn
      simp
    · rw [Function.update_of_ne hn, Function.update_of_ne (Ne.symm hn)]
      omega
  all_goals rfl

/-- The receive task does the same in other work. -/
lemma without_stepRecv (hw : v.recv.writes m = false) (hs : v.stepRecv = some v')
    (halive : v'.exited = false) : (v.without m).stepRecv = some (v'.without m) := by
  have hrecv : (v.without m).recv = v.recv := if_neg (by simp [hw])
  have htaken : v.recv.taken m = 0 := by
    cases hpc : v.recv with
    | link r =>
      have hpos : r.pos ≠ m.pos := by simpa [hpc, Recv.writes] using hw
      exact if_neg hpos
    | _ => rfl
  have hroom : (v.without m).room = v.room + (v.waiting m).length := by
    change v.room + (v.waiting m).length + v.recv.taken m = _
    rw [htaken, Nat.add_zero]
  rw [stepRecv] at hs ⊢
  rw [hrecv]
  cases hpc : v.recv with
  | idle => simp [hpc] at hs
  | produce r =>
    have hpos : r.pos ≠ m.pos := by simpa [hpc, Recv.writes] using hw
    cases hr : v.room with
    | zero =>
      obtain rfl : { v with recv := .produce r, room := 0, exited := true } = v' := by
        simpa [hpc, hr] using hs
      cases halive
    | succ room =>
      obtain rfl : { v with room := room, recv := .link r } = v' := by simpa [hpc, hr] using hs
      have hsucc : (v.without m).room = room + (v.waiting m).length + 1 := by
        rw [hroom, hr]
        omega
      simp only [hsucc]
      refine congrArg some ?_
      ext1
      case recv => simp [without, Recv.writes, hpos]
      case room => simp [without, Recv.taken, hpos]
      all_goals rfl
  | link r =>
    have hpos : r.pos ≠ m.pos := by simpa [hpc, Recv.writes] using hw
    obtain rfl : v.link r = v' := by simpa [hpc] using hs
    refine congrArg some ?_
    ext1
    case recv => rfl
    case room =>
      cases hn : stationOf r.pos with
      | none => simp [without, link, Recv.taken, hpc, hpos, hn]
      | some n =>
        have hne : m ≠ n := by
          rintro rfl
          exact hpos (stationOf_eq_some.1 hn)
        simp [without, link, Recv.taken, hpc, hpos, hn, Function.update_of_ne hne]
    case waiting =>
      cases hn : stationOf r.pos with
      | none => simp [without, link, hn]
      | some n =>
        have hne : n ≠ m := by
          rintro rfl
          exact hpos (stationOf_eq_some.1 hn)
        simp only [without, link, hn, Function.update_of_ne hne]
        exact Function.update_comm hne.symm _ _ v.waiting
    all_goals rfl
  | zero =>
    obtain rfl : { v with count := 0, recv := .clear1 } = v' := by simpa [hpc] using hs
    refine congrArg some ?_
    ext1
    case count => cases m <;> rfl
    case room => simp [without, hpc, Recv.taken]
    all_goals rfl
  | clear1 =>
    obtain rfl : v.clear .one .clear2 = v' := by simpa [hpc] using hs
    exact congrArg some (without_clear htaken .one rfl rfl).symm
  | clear2 =>
    obtain rfl : v.clear .two .reply = v' := by simpa [hpc] using hs
    exact congrArg some (without_clear htaken .two rfl rfl).symm
  | reply =>
    obtain rfl : { v with recv := .finish } = v' := by simpa [hpc] using hs
    refine congrArg some ?_
    ext1
    case room => simp [without, hpc, Recv.taken]
    all_goals rfl
  | finish =>
    obtain rfl : { v with recv := .idle } = v' := by simpa [hpc] using hs
    refine congrArg some ?_
    ext1
    case room => simp [without, hpc, Recv.taken]
    all_goals rfl

/-! ## Steps and runs -/

lemma trig_stepRecv (hs : v.stepRecv = some v') : v'.trig = v.trig := by
  rw [stepRecv] at hs
  cases hpc : v.recv with
  | produce r =>
    cases hroom : v.room with
    | zero =>
      obtain rfl : _ = v' := by simpa [hpc, hroom] using hs
      rfl
    | succ room =>
      obtain rfl : _ = v' := by simpa [hpc, hroom] using hs
      rfl
  | idle => simp [hpc] at hs
  | link r | zero | clear1 | clear2 | reply | finish =>
    obtain rfl : _ = v' := by simpa [hpc] using hs
    rfl

lemma trig_search (q : Query) :
    ∃ found, (v.search cfg n q).trig = Function.update v.trig n (.searched found) := by
  rw [search]
  split
  · exact ⟨true, rfl⟩
  · exact ⟨false, rfl⟩

/-- What the search task of station 2 goes on to, if it does not count. -/
lemma NoCount.stepTrig (h : v.NoCount) (hs : v.stepTrig cfg n = some v') : v'.NoCount := by
  have hother : ∀ pc, v'.trig = Function.update v.trig n pc →
      ((∀ code cur, pc ≠ .counting code cur) ∧ ∀ code, pc ≠ .counted code) ∨ n = .one →
        v'.NoCount := by
    intro pc htrig hpc
    rw [NoCount, htrig]
    cases n with
    | one => simpa [NoCount] using h
    | two => simpa using hpc
  rw [Reject.stepTrig] at hs
  cases hpc : v.trig n with
  | idle =>
    cases hm : v.mbx n with
    | nil => simp [hpc, hm] at hs
    | cons code rest =>
      obtain rfl : v.pend n code rest = v' := by simpa [hpc, hm] using hs
      exact hother (.pended code) rfl (.inl (by simp))
  | pended code =>
    cases n with
    | one =>
      obtain rfl : _ = v' := by simpa [hpc] using hs
      exact hother _ rfl (.inr rfl)
    | two =>
      obtain rfl : _ = v' := by simpa [hpc] using hs
      exact hother _ rfl (.inl (by simp))
  | counting code cur =>
    obtain rfl : _ = v' := by simpa [hpc] using hs
    cases n with
    | one => exact hother _ rfl (.inr rfl)
    | two => exact absurd hpc (h.1 code cur)
  | counted code =>
    by_cases hk : cfg.kickMode = 0
    · obtain rfl : _ = v' := by simpa [hpc, hk] using hs
      exact hother _ rfl (.inl (by simp))
    · obtain rfl : _ = v' := by simpa [hpc, hk] using hs
      exact hother _ rfl (.inl (by simp))
  | searching q =>
    obtain rfl : v.search cfg n q = v' := by simpa [hpc] using hs
    obtain ⟨found, htrig⟩ : ∃ found, (v.search cfg n q).trig =
        Function.update v.trig n (.searched found) := trig_search q
    exact hother _ htrig (.inl (by simp))
  | searched found =>
    obtain rfl : v.command n found = v' := by simpa [hpc] using hs
    exact hother .written rfl (.inl (by simp))
  | written =>
    obtain rfl : _ = v' := by simpa [hpc] using hs
    exact hother .idle rfl (.inl (by simp))

lemma NoCount.step (h : v.NoCount) (hs : v.step cfg l = some v') : v'.NoCount := by
  unfold Reject.step at hs
  split at hs
  · cases hs
  have hkeep : v'.trig = v.trig → v'.NoCount := by
    intro htrig
    rw [NoCount, htrig]
    exact h
  cases l with
  | sample r | reset =>
    simp only at hs
    split at hs
    · obtain rfl := Option.some.inj hs
      exact hkeep rfl
    · cases hs
  | recv => exact hkeep (trig_stepRecv hs)
  | kick n code =>
    obtain rfl := Option.some.inj hs
    exact hkeep rfl
  | trig n => exact h.stepTrig hs

/-- A step is left out with the station, or it is a step without the station. -/
lemma without_step (hno : v.NoCount) (hs : v.step cfg l = some v') (halive : v'.exited = false) :
    if v.leftOut m l then v'.without m = v.without m
    else (v.without m).step cfg l = some (v'.without m) := by
  have hexited : v.exited = false := by
    by_contra hc
    have he : v.exited = true := by simpa using hc
    simp [Reject.step, he] at hs
  have hexited' : (v.without m).exited = false := hexited
  unfold Reject.step at hs ⊢
  rw [if_neg (by simp [hexited])] at hs
  rw [if_neg (show ¬ (v.without m).exited = true by simp [hexited'])]
  cases l with
  | sample r =>
    simp only at hs
    split at hs
    case isFalse => cases hs
    case isTrue hr =>
      have hr' : (v.without m).recv = .idle := by simp [without, hr, Recv.writes]
      obtain rfl := Option.some.inj hs
      have hleft : v.leftOut m (.sample r) = (r.pos == m.pos) := by
        simp [leftOut, Label.isOf]
      rw [hleft]
      by_cases hpos : r.pos = m.pos
      · have h0 : r.pos ≠ 0 := by
          rw [hpos]
          cases m <;> decide
        rw [if_pos (by simp [hpos]), if_pos h0]
        ext1
        case recv => simp [without, Recv.writes, hpos, hr]
        case room => simp [without, Recv.taken, hr]
        all_goals rfl
      · rw [if_neg (by simp [hpos])]
        simp only [hr', if_true]
        refine congrArg some ?_
        ext1
        case recv =>
          by_cases h0 : r.pos = 0 <;> simp [without, Recv.writes, h0, hpos]
        case room =>
          by_cases h0 : r.pos = 0 <;> simp [without, Recv.taken, hr, h0]
        all_goals rfl
  | reset =>
    simp only at hs
    split at hs
    case isFalse => cases hs
    case isTrue hr =>
      have hr' : (v.without m).recv = .idle := by simp [without, hr, Recv.writes]
      obtain rfl := Option.some.inj hs
      have hleft : v.leftOut m .reset = false := rfl
      rw [hleft]
      simp only [hr', if_true, Bool.false_eq_true, if_false]
      refine congrArg some ?_
      ext1
      case room => simp [without, Recv.taken, hr]
      all_goals rfl
  | recv =>
    have hleft : v.leftOut m .recv = v.recv.writes m := by simp [leftOut, Label.isOf]
    rw [hleft]
    cases hw : v.recv.writes m with
    | true => exact without_stepRecv_self hw hs halive
    | false => exact without_stepRecv hw hs halive
  | kick n code =>
    obtain rfl := Option.some.inj hs
    have hleft : v.leftOut m (.kick n code) = (n == m) := by simp [leftOut, Label.isOf]
    rw [hleft]
    by_cases hn : n = m
    · subst hn
      simp only [beq_self_eq_true, if_true]
      ext1
      case mbx => exact Function.update_idem ..
      all_goals rfl
    · rw [if_neg (by simpa using hn)]
      refine congrArg some ?_
      ext1
      case mbx =>
        simp only [without, post, Function.update_of_ne hn]
        exact Function.update_comm (Ne.symm hn) _ _ v.mbx
      all_goals rfl
  | trig n =>
    have hleft : v.leftOut m (.trig n) = (n == m) := by simp [leftOut, Label.isOf]
    rw [hleft]
    by_cases hn : n = m
    · subst hn
      simp only [beq_self_eq_true, if_true]
      exact without_stepTrig_self hno hs
    · rw [if_neg (by simpa using hn)]
      have hmap : (v.stepTrig cfg n).map (without m) = (v.without m).stepTrig cfg n :=
        without_stepTrig hno hn
      simp only at hs
      rw [hs] at hmap
      exact hmap.symm

/-- An end of the process is the end of the run. -/
lemma alive_of_exec {ls : List Label} (hs : exec (step cfg) v ls = some v')
    (halive : v'.exited = false) : v.exited = false := by
  cases ls with
  | nil =>
    obtain rfl : v = v' := by simpa using hs
    exact halive
  | cons l ls =>
    by_contra hc
    have he : v.exited = true := by simpa using hc
    simp [exec_cons, step, he] at hs

/-- A run without the labels of the station. -/
lemma without_exec (hno : v.NoCount) {ls : List Label} (hs : exec (step cfg) v ls = some v')
    (halive : v'.exited = false) :
    ∃ ls' : List Label, ls'.Sublist ls ∧
      ls'.filter (· != .recv) = ls.filter (fun l => l != .recv && !l.isOf m) ∧
      exec (step cfg) (v.without m) ls' = some (v'.without m) := by
  induction ls generalizing v with
  | nil =>
    obtain rfl : v = v' := by simpa using hs
    exact ⟨[], .slnil, rfl, rfl⟩
  | cons l ls ih =>
    rw [exec_cons, Option.bind_eq_some_iff] at hs
    obtain ⟨v₁, hl, hs⟩ := hs
    obtain ⟨ls', hsub, hfilter, hexec⟩ := ih (hno.step hl) hs
    have hstep := without_step (m := m) hno hl (alive_of_exec hs halive)
    cases hleft : v.leftOut m l with
    | true =>
      rw [hleft, if_pos rfl] at hstep
      rw [hstep] at hexec
      refine ⟨ls', hsub.cons l, ?_, hexec⟩
      have hout : (l != .recv && !l.isOf m) = false := by
        rcases Bool.or_eq_true_iff.1 hleft with h | h
        · simp [h]
        · have hrecv : l = .recv := by simpa using (Bool.and_eq_true_iff.1 h).1
          simp [hrecv]
      rw [List.filter_cons, hout]
      exact hfilter
    | false =>
      rw [hleft, if_neg Bool.false_ne_true] at hstep
      refine ⟨l :: ls', hsub.cons_cons l, ?_, ?_⟩
      · have hof : l.isOf m = false := (Bool.or_eq_false_iff.1 hleft).1
        simp only [List.filter_cons, hof, Bool.not_false, Bool.and_true, hfilter]
      · rw [exec_cons, hstep]
        exact hexec

lemma without_init (m : Station) : init.without m = init := by
  ext1
  case waiting => exact Function.update_eq_self m init.waiting
  case mbx => exact Function.update_eq_self m init.mbx
  case trig => exact Function.update_eq_self m init.trig
  case count => cases m <;> rfl
  all_goals rfl

lemma noCount_init : init.NoCount :=
  ⟨fun _ _ h => Trig.noConfusion h, fun _ h => Trig.noConfusion h⟩

end Reject

namespace Sys

/-- A sample at each station, and a trigger at each while the other one is handled. -/
def bothStations : List Label :=
  [.sample (frame 1), .recv, .recv, .sample (frame 2), .recv, .recv, .kick .two 1000]
    ++ .kick .one 1000 :: (List.replicate 5 [.trig .one, .trig .two]).flatten
    ++ List.replicate 2 (.trig .one)

def afterBoth : Sys :=
  (exec (step SysConfig.default) (init zeroMemory) bothStations).getD (init zeroMemory)

end Sys

end RejectProcess
