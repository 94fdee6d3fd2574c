import RejectProcess.Lib.Stock
import RejectProcess.Sample.Stations
import RejectProcess.Sample.TriggerCode
import RejectProcess.Sample.Window

/-!
# The products are independent

A search that tells the products apart takes the sample of the product it is made for or none, so
whatever is lost, repeated or made up for one product has no effect on the others.  In counting mode
the count tells them apart always, but it is the count of the trigger and not of the product; in
wheel code mode the wheel codes do if the samples lie far enough from each other and every search
is made with the wheel code that its trigger was posted with.
-/

namespace RejectProcess

open Lib

/-- What has an effect on the samples that wait. -/
inductive Deed
  /-- A sample was linked. -/
  | linked (r : SampleResult)
  /-- A search was made. -/
  | asked (n : Station) (q : Query)
  /-- The samples of a station were cleared. -/
  | cleared (n : Station)
deriving DecidableEq, Repr

namespace Reject

/-- What a step does to the samples. -/
def deed (v : Reject) : Label → Option Deed
  | .recv =>
    match v.recv with
    | .link r => some (.linked r)
    | .clear1 => some (.cleared .one)
    | .clear2 => some (.cleared .two)
    | _ => none
  | .trig n =>
    match v.trig n with
    | .searching q => some (.asked n q)
    | _ => none
  | _ => none

/-- What a run does to them. -/
def deeds (cfg : SysConfig) : Reject → List Label → List Deed
  | _, [] => []
  | v, l :: ls =>
    match v.step cfg l with
    | none => []
    | some v' => (v.deed l).toList ++ deeds cfg v' ls

/-- The outcome of a search whose command is not written yet. -/
def Trig.outcome : Trig → List Bool
  | .searched found => [found]
  | _ => []

/-- What the commands to a station say: was there a sample? -/
def commands (v : Reject) (n : Station) : List Bool :=
  (v.fifo.filter fun c => c.1 = n.comFifoReg).map fun c => decide (c.2 = 1)

/-- The commands to a station so far, with the one that its task is about to write. -/
def told (v : Reject) (n : Station) : List Bool := v.commands n ++ (v.trig n).outcome

end Reject

/-- How the products are told apart at a station: the product of a sample, and the one that a search
is made for, if it is one. -/
structure Products (κ : Type*) where
  ofSample : SampleResult → κ
  ofQuery : Query → Option κ

namespace Products

variable {κ : Type*} (p : Products κ) (n : Station)

/-- The searches at the station find just the samples of their product. -/
def Fits (cfg : SysConfig) (ds : List Deed) : Prop :=
  ∀ r q, .linked r ∈ ds → r.pos = n.pos → .asked n q ∈ ds →
    (q.test cfg n r = true ↔ p.ofQuery q = some (p.ofSample r))

variable {p n} in
lemma Fits.mono {cfg : SysConfig} {ds es : List Deed} (h : p.Fits n cfg es) (hsub : ds ⊆ es) :
    p.Fits n cfg ds :=
  fun r q hr hpos hq => h r q (hsub hr) hpos (hsub hq)

/-- What a deed is to the station. -/
def deal : Deed → Option (Deal κ)
  | .linked r => if r.pos = n.pos then some (.put (p.ofSample r)) else none
  | .asked n' q => if n' = n then some (.ask (p.ofQuery q)) else none
  | .cleared n' => if n' = n then some .clear else none

/-- What the deeds are to the station. -/
def deals (ds : List Deed) : List (Deal κ) := ds.filterMap (p.deal n)

end Products

namespace Reject

variable {cfg : SysConfig} {v v' : Reject} {l : Label} {ds : List Deed}

/-- The sample that the receive task is at work on. -/
def Recv.sample : Recv → Option SampleResult
  | .produce r => some r
  | .link r => some r
  | _ => none

lemma trig_setTrig_self (v : Reject) (n : Station) (pc : Trig) : (v.setTrig n pc).trig n = pc :=
  Function.update_self ..

lemma trig_setTrig_of_ne {n n' : Station} (h : n' ≠ n) (v : Reject) (pc : Trig) :
    (v.setTrig n pc).trig n' = v.trig n' :=
  Function.update_of_ne h ..

lemma told_setTrig_of_ne {n n' : Station} (h : n' ≠ n) (pc : Trig) :
    (v.setTrig n pc).told n' = v.told n' := by
  rw [told, trig_setTrig_of_ne h]
  rfl

/-- A task whose search is neither made nor made known has nothing more to say. -/
lemma told_setTrig {n : Station} {pc : Trig} (h : (v.trig n).outcome = []) (hpc : pc.outcome = [])
    (n' : Station) : (v.setTrig n pc).told n' = v.told n' := by
  by_cases hn : n' = n
  · subst hn
    rw [told, told, trig_setTrig_self, h, hpc]
    rfl
  · exact told_setTrig_of_ne hn pc

/-- A step before a search or after its command tells nothing. -/
lemma told_of_move {n : Station} {pc : Trig} (ho : (v.trig n).outcome = []) (hpc : pc.outcome = [])
    (hfifo : v'.fifo = v.fifo) (htrig : v'.trig = (v.setTrig n pc).trig) : v'.told = v.told := by
  funext n'
  rw [told, commands, hfifo, htrig]
  exact told_setTrig ho hpc n'

lemma deed_trig {n : Station} (hq : ∀ q, v.trig n ≠ .searching q) : v.deed (.trig n) = none := by
  rw [deed]
  split
  case h_1 q heq => exact absurd heq (hq q)
  case h_2 => rfl

/-- The steps by what they do to the samples and the commands, to the sample that the receive task
is at work on, and to the search that a task is about to make. -/
inductive Step (cfg : SysConfig) (v : Reject) : Label → Reject → Prop
  | link (r : SampleResult) (hr : v.recv = .link r) : Step cfg v .recv (v.link r)
  | clear (n : Station) (pc : Recv) (hd : v.deed .recv = some (.cleared n))
      (hpc : pc.sample = none) : Step cfg v .recv (v.clear n pc)
  | search (n : Station) (q : Query) (hq : v.trig n = .searching q) :
      Step cfg v (.trig n) (v.search cfg n q)
  | command (n : Station) (found : Bool) (hf : v.trig n = .searched found) :
      Step cfg v (.trig n) (v.command n found)
  | move (n : Station) (pc : Trig) (v' : Reject) (hq : ∀ q, v.trig n ≠ .searching q)
      (ho : (v.trig n).outcome = []) (hpc : pc.outcome = [])
      (hkind : v.NoCount → ∀ q, pc = .searching q → q.isCount = countsAt cfg n)
      (hwait : v'.waiting = v.waiting) (hfifo : v'.fifo = v.fifo)
      (htrig : v'.trig = (v.setTrig n pc).trig) (hrecv : v'.recv = v.recv) :
      Step cfg v (.trig n) v'
  | other (l : Label) (v' : Reject) (hd : v.deed l = none) (hwait : v'.waiting = v.waiting)
      (hfifo : v'.fifo = v.fifo) (htrig : v'.trig = v.trig)
      (hsample : ∀ r, v'.recv.sample = some r → v.recv.sample = some r ∨ l = .sample r) :
      Step cfg v l v'

/-- The command says what the search has found. -/
lemma told_command {n : Station} {found : Bool} (h : v.trig n = .searched found) :
    (v.command n found).told = v.told := by
  funext n'
  by_cases hn : n' = n
  · subst hn
    have hfifo : (v.command n' found).commands n' = v.commands n' ++ [found] := by
      rw [commands, command, List.filter_append, List.map_append]
      cases found <;> simp [commands]
    have htrig : (v.command n' found).trig n' = .written := Function.update_self ..
    rw [told, hfifo, htrig, told, h]
    simp [Trig.outcome]
  · have hfifo : (v.command n found).commands n' = v.commands n' := by
      have hreg : n.comFifoReg ≠ n'.comFifoReg := comFifoReg_ne (Ne.symm hn)
      rw [commands, command, List.filter_append, List.filter_cons_of_neg (by simpa using hreg)]
      simp [commands]
    have htrig : (v.command n found).trig n' = v.trig n' := Function.update_of_ne hn _ _
    rw [told, hfifo, htrig, told]

lemma step_trig_inv {n : Station} (h : v.stepTrig cfg n = some v') : Step cfg v (.trig n) v' := by
  rw [stepTrig] at h
  cases hpc : v.trig n with
  | idle =>
    rw [hpc] at h
    cases hm : v.mbx n with
    | nil => simp [hm] at h
    | cons code rest =>
      obtain rfl : v.pend n code rest = v' := by simpa [hm] using h
      refine .move n (.pended code) _ (by simp [hpc]) (by simp [hpc, Trig.outcome]) rfl ?_
        rfl rfl rfl rfl
      rintro - q ⟨⟩
  | pended code =>
    rw [hpc] at h
    cases n with
    | one =>
      obtain rfl : v.setTrig .one (.counting code v.count) = v' := by simpa using h
      refine .move .one _ _ (by simp [hpc]) (by simp [hpc, Trig.outcome]) rfl ?_ rfl rfl rfl rfl
      rintro - q ⟨⟩
    | two =>
      obtain rfl : v.setTrig .two (.searching (.wheelCode (v.wheelCode .two code))) = v' := by
        simpa using h
      refine .move .two _ _ (by simp [hpc]) (by simp [hpc, Trig.outcome]) rfl ?_ rfl rfl rfl rfl
      rintro - q ⟨⟩
      rfl
  | counting code cur =>
    rw [hpc] at h
    obtain rfl : { v.setTrig n (.counted code) with count := cur + 1 } = v' := by simpa using h
    refine .move n (.counted code) _ (by simp [hpc]) (by simp [hpc, Trig.outcome]) rfl ?_
      rfl rfl rfl rfl
    rintro - q ⟨⟩
  | counted code =>
    rw [hpc] at h
    have hone : v.NoCount → n = .one := by
      intro hno
      cases n with
      | one => rfl
      | two => exact absurd hpc (hno.2 code)
    by_cases hk : cfg.kickMode = 0
    · obtain rfl : v.setTrig n (.searching (.count v.count)) = v' := by simpa [hk] using h
      refine .move n _ _ (by simp [hpc]) (by simp [hpc, Trig.outcome]) rfl ?_ rfl rfl rfl rfl
      rintro hno q ⟨⟩
      simp [Query.isCount, countsAt, hone hno, hk]
    · obtain rfl : v.setTrig n (.searching (.wheelCode (v.wheelCode n code))) = v' := by
        simpa [hk] using h
      refine .move n _ _ (by simp [hpc]) (by simp [hpc, Trig.outcome]) rfl ?_ rfl rfl rfl rfl
      rintro - q ⟨⟩
      simp [Query.isCount, countsAt, hk]
  | searching q =>
    rw [hpc] at h
    obtain rfl : v.search cfg n q = v' := by simpa using h
    exact .search n q hpc
  | searched found =>
    rw [hpc] at h
    obtain rfl : v.command n found = v' := by simpa using h
    exact .command n found hpc
  | written =>
    rw [hpc] at h
    obtain rfl : v.setTrig n .idle = v' := by simpa using h
    refine .move n _ _ (by simp [hpc]) (by simp [hpc, Trig.outcome]) rfl ?_ rfl rfl rfl rfl
    rintro - q ⟨⟩

lemma step_recv_inv (h : v.stepRecv = some v') : Step cfg v .recv v' := by
  have hother : ∀ v', v.deed .recv = none → v'.waiting = v.waiting → v'.fifo = v.fifo →
      v'.trig = v.trig → (∀ r, v'.recv.sample = some r → v.recv.sample = some r) →
        Step cfg v .recv v' :=
    fun v' hd hw hf ht hs => .other .recv v' hd hw hf ht fun r hr => .inl (hs r hr)
  rw [stepRecv] at h
  cases hpc : v.recv with
  | idle => simp [hpc] at h
  | produce r =>
    rw [hpc] at h
    cases hroom : v.room with
    | zero =>
      simp only [hroom, Option.some.injEq] at h
      subst h
      exact hother _ (by simp [deed, hpc]) rfl rfl rfl (by simp [hpc])
    | succ room =>
      obtain rfl : { v with room := room, recv := .link r } = v' := by simpa [hroom] using h
      exact hother _ (by simp [deed, hpc]) rfl rfl rfl (by simp [hpc, Recv.sample])
  | link r =>
    rw [hpc] at h
    obtain rfl : v.link r = v' := by simpa using h
    exact .link r hpc
  | zero =>
    rw [hpc] at h
    obtain rfl : { v with count := 0, recv := .clear1 } = v' := by simpa using h
    exact hother _ (by simp [deed, hpc]) rfl rfl rfl (by simp [Recv.sample])
  | clear1 =>
    rw [hpc] at h
    obtain rfl : v.clear .one .clear2 = v' := by simpa using h
    exact .clear _ _ (by simp [deed, hpc]) rfl
  | clear2 =>
    rw [hpc] at h
    obtain rfl : v.clear .two .reply = v' := by simpa using h
    exact .clear _ _ (by simp [deed, hpc]) rfl
  | reply =>
    rw [hpc] at h
    obtain rfl : { v with recv := .finish } = v' := by simpa using h
    exact hother _ (by simp [deed, hpc]) rfl rfl rfl (by simp [Recv.sample])
  | finish =>
    rw [hpc] at h
    obtain rfl : { v with recv := .idle } = v' := by simpa using h
    exact hother _ (by simp [deed, hpc]) rfl rfl rfl (by simp [Recv.sample])

lemma step_inv (h : v.step cfg l = some v') : Step cfg v l v' := by
  unfold step at h
  split at h
  · cases h
  cases l with
  | sample r =>
    dsimp only at h
    split at h
    · cases h
      refine .other _ _ rfl rfl rfl rfl fun r' hr' => .inr ?_
      dsimp only at hr'
      split at hr'
      · exact congrArg _ (Option.some.inj hr')
      · cases hr'
    · cases h
  | reset =>
    dsimp only at h
    split at h
    · cases h
      exact .other _ _ rfl rfl rfl rfl (by simp [Recv.sample])
    · cases h
  | recv => exact step_recv_inv h
  | kick n code =>
    obtain rfl : v.post n code = v' := by simpa using h
    exact .other _ _ rfl rfl rfl rfl fun r hr => .inl hr
  | trig n => exact step_trig_inv h

/-- A search leaves what was before the first sample that passes, and what was after it. -/
lemma waiting_search (v : Reject) (n : Station) (q : Query) :
    (v.search cfg n q).waiting =
      Function.update v.waiting n ((v.waiting n).eraseP (q.test cfg n)) := by
  rw [search]
  split
  · rfl
  · next h =>
    have hno : ∀ r ∈ v.waiting n, ¬ q.test cfg n r = true := by simpa using h
    rw [List.eraseP_of_forall_not hno, Function.update_eq_self]
    rfl

lemma fifo_search (v : Reject) (n : Station) (q : Query) :
    (v.search cfg n q).fifo = v.fifo := by
  rw [search]
  split <;> rfl

lemma trig_search_eq (v : Reject) (n : Station) (q : Query) :
    (v.search cfg n q).trig =
      (v.setTrig n (.searched ((v.waiting n).any (q.test cfg n)))).trig := by
  rw [search]
  split
  · next h => rw [h]
  · next h => rw [Bool.eq_false_iff.2 h]

/-- A search has one more thing to tell: whether there was a sample. -/
lemma told_search {n : Station} {q : Query} (h : v.trig n = .searching q) :
    (v.search cfg n q).told n = v.told n ++ [(v.waiting n).any (q.test cfg n)] := by
  have hno : (v.trig n).outcome = [] := by simp [h, Trig.outcome]
  rw [told, told, commands, fifo_search, trig_search_eq, trig_setTrig_self, hno, List.append_nil]
  rfl

lemma told_search_of_ne {n n' : Station} (h : n' ≠ n) (q : Query) :
    (v.search cfg n q).told n' = v.told n' := by
  rw [told, commands, fifo_search, trig_search_eq, trig_setTrig_of_ne h]
  rfl

end Reject

/-! ## The samples at a station are a stock -/

namespace Products

variable {κ : Type*} {p : Products κ} {n : Station} {cfg : SysConfig}
  {ds : List Deed} {d : Deed} {v v' : Reject} {l : Label}

lemma deals_append (ds : List Deed) (d : Deed) :
    p.deals n (ds ++ [d]) = p.deals n ds ++ (p.deal n d).toList := by
  rw [deals, List.filterMap_append]
  cases h : p.deal n d <;> simp [deals, h]

variable [DecidableEq κ]

/-- What the station has is what the deeds make of a stock of products. -/
structure Kept (p : Products κ) (n : Station) (ds : List Deed) (v : Reject) : Prop where
  waiting : (v.waiting n).map p.ofSample = stock (p.deals n ds)
  linked : ∀ r ∈ v.waiting n, .linked r ∈ ds ∧ r.pos = n.pos
  told : v.told n = answers [] (p.deals n ds)

/-- A step without a deed. -/
lemma Kept.same (h : p.Kept n ds v) (hd : v.deed l = none) (hwait : v'.waiting = v.waiting)
    (htold : v'.told = v.told) : p.Kept n (ds ++ (v.deed l).toList) v' := by
  rw [hd, Option.toList_none, List.append_nil]
  exact ⟨by rw [hwait, h.waiting], by rw [hwait]; exact h.linked, by rw [htold, h.told]⟩

/-- A deed that is none of the station's. -/
lemma Kept.skip (h : p.Kept n ds v) (hd : p.deal n d = none) (hwait : v'.waiting n = v.waiting n)
    (htold : v'.told n = v.told n) : p.Kept n (ds ++ [d]) v' where
  waiting := by rw [hwait, deals_append, hd, h.waiting, Option.toList_none, List.append_nil]
  linked r hr := by
    rw [hwait] at hr
    exact ⟨List.mem_append_left _ (h.linked r hr).1, (h.linked r hr).2⟩
  told := by rw [htold, deals_append, hd, h.told, Option.toList_none, List.append_nil]

lemma kept_link (h : p.Kept n ds v) (r : SampleResult) :
    p.Kept n (ds ++ [.linked r]) (v.link r) := by
  by_cases hpos : r.pos = n.pos
  · have hdeal : p.deal n (.linked r) = some (.put (p.ofSample r)) := if_pos hpos
    have hwait : (v.link r).waiting n = v.waiting n ++ [r] := by
      simp [Reject.link, stationOf_eq_some.2 hpos]
    constructor
    case waiting =>
      rw [hwait, deals_append, hdeal, Option.toList_some, stock_append, List.map_append, h.waiting]
      rfl
    case linked =>
      intro r' hr'
      rw [hwait, List.mem_append, List.mem_singleton] at hr'
      rcases hr' with hr' | rfl
      · exact ⟨List.mem_append_left _ (h.linked r' hr').1, (h.linked r' hr').2⟩
      · exact ⟨by simp, hpos⟩
    case told =>
      rw [deals_append, hdeal, Option.toList_some, answers_append, ← h.told]
      exact (List.append_nil _).symm
  · refine h.skip (if_neg hpos) ?_ rfl
    simp only [Reject.link]
    cases hst : stationOf r.pos with
    | none => rfl
    | some m =>
      have hne : n ≠ m := by
        rintro rfl
        exact hpos (stationOf_eq_some.1 hst)
      exact Function.update_of_ne hne ..

lemma kept_clear (h : p.Kept n ds v) (m : Station) (pc : Reject.Recv) :
    p.Kept n (ds ++ [.cleared m]) (v.clear m pc) := by
  by_cases hm : m = n
  · subst hm
    have hdeal : p.deal m (.cleared m) = some .clear := if_pos rfl
    have hwait : (v.clear m pc).waiting m = [] := Function.update_self ..
    constructor
    case waiting =>
      rw [hwait, deals_append, hdeal, Option.toList_some, stock_append]
      rfl
    case linked => simp [hwait]
    case told =>
      rw [deals_append, hdeal, Option.toList_some, answers_append, ← h.told]
      exact (List.append_nil _).symm
  · exact h.skip (if_neg hm) (Function.update_of_ne (Ne.symm hm) ..) rfl

lemma kept_search (h : p.Kept n ds v) {m : Station} {q : Query} (hq : v.trig m = .searching q)
    (hfits : p.Fits n cfg (ds ++ [.asked m q])) :
    p.Kept n (ds ++ [.asked m q]) (v.search cfg m q) := by
  by_cases hm : m = n
  · subst hm
    have hdeal : p.deal m (.asked m q) = some (.ask (p.ofQuery q)) := if_pos rfl
    -- the test is one for the product, as far as the samples at the station go
    have htest : ∀ r ∈ v.waiting m, q.test cfg m r = true ↔ p.ofQuery q = some (p.ofSample r) :=
      fun r hr => hfits r q (List.mem_append_left _ (h.linked r hr).1) (h.linked r hr).2 (by simp)
    have hwait : (v.search cfg m q).waiting m = (v.waiting m).eraseP (q.test cfg m) := by
      rw [Reject.waiting_search, Function.update_self]
    constructor
    case waiting =>
      rw [hwait, deals_append, hdeal, Option.toList_some, stock_append, map_eraseP htest,
        h.waiting]
    case linked =>
      intro r hr
      rw [hwait] at hr
      have hr' := h.linked r (List.mem_of_mem_eraseP hr)
      exact ⟨List.mem_append_left _ hr'.1, hr'.2⟩
    case told =>
      rw [Reject.told_search hq, any_eq_answer htest h.waiting, deals_append, hdeal,
        Option.toList_some, answers_append, ← h.told]
      rfl
  · refine h.skip (if_neg hm) ?_ (Reject.told_search_of_ne (Ne.symm hm) q)
    rw [Reject.waiting_search, Function.update_of_ne (Ne.symm hm)]

/-- A step makes of the station what its deed makes of the stock. -/
lemma kept_step (h : p.Kept n ds v) (hfits : p.Fits n cfg (ds ++ (v.deed l).toList))
    (hs : v.step cfg l = some v') : p.Kept n (ds ++ (v.deed l).toList) v' := by
  cases Reject.step_inv hs with
  | link r hr =>
    have hd : v.deed .recv = some (.linked r) := by simp [Reject.deed, hr]
    rw [hd]
    exact kept_link h r
  | clear m pc hd =>
    rw [hd]
    exact kept_clear h m pc
  | search m q hq =>
    have hd : v.deed (.trig m) = some (.asked m q) := by simp [Reject.deed, hq]
    rw [hd] at hfits ⊢
    exact kept_search h hq hfits
  | command m found hf =>
    exact h.same (Reject.deed_trig (by simp [hf])) rfl (Reject.told_command hf)
  | move m pc _ hq ho hpc _ hwait hfifo htrig _ =>
    exact h.same (Reject.deed_trig hq) hwait (Reject.told_of_move ho hpc hfifo htrig)
  | other _ _ hd hwait hfifo htrig _ =>
    refine h.same hd hwait (funext fun n' => ?_)
    rw [Reject.told, Reject.commands, hfifo, htrig, Reject.told, Reject.commands]

lemma kept_exec (ls : List Label) (h : p.Kept n ds v)
    (hfits : p.Fits n cfg (ds ++ v.deeds cfg ls)) (hrun : exec (Reject.step cfg) v ls = some v') :
    p.Kept n (ds ++ v.deeds cfg ls) v' := by
  induction ls generalizing ds v with
  | nil =>
    obtain rfl : v = v' := by simpa using hrun
    simpa [Reject.deeds] using h
  | cons l ls ih =>
    rw [exec_cons, Option.bind_eq_some_iff] at hrun
    obtain ⟨v₁, hs, hrun⟩ := hrun
    rw [Reject.deeds, hs] at hfits ⊢
    dsimp only at hfits ⊢
    rw [← List.append_assoc] at hfits ⊢
    exact ih (kept_step h (hfits.mono (List.subset_append_left ..)) hs) hfits hrun

end Products

/-! ## What is linked and what is asked -/

/-- The deed is about a sample with the property, or about a search of the station's kind. -/
def Deed.Sound (cfg : SysConfig) (P : SampleResult → Prop) : Deed → Prop
  | .linked r => P r
  | .asked n q => q.isCount = countsAt cfg n
  | .cleared _ => True

namespace Reject

variable {cfg : SysConfig} {v v' : Reject} {l : Label} {P : SampleResult → Prop}

/-- What is to be linked has the property, and what is to be asked is of the station's kind. -/
structure Ready (cfg : SysConfig) (P : SampleResult → Prop) (v : Reject) : Prop where
  noCount : v.NoCount
  sample : ∀ r, v.recv.sample = some r → P r
  query : ∀ n q, v.trig n = .searching q → q.isCount = countsAt cfg n

lemma Ready.deed (h : v.Ready cfg P) {d : Deed} (hd : v.deed l = some d) : d.Sound cfg P := by
  cases l with
  | recv =>
    cases hr : v.recv with
    | link r =>
      obtain rfl : Deed.linked r = d := by simpa [Reject.deed, hr] using hd
      exact h.sample r (by rw [hr]; rfl)
    | clear1 =>
      obtain rfl : Deed.cleared .one = d := by simpa [Reject.deed, hr] using hd
      trivial
    | clear2 =>
      obtain rfl : Deed.cleared .two = d := by simpa [Reject.deed, hr] using hd
      trivial
    | idle | produce r | zero | reply | finish => simp [Reject.deed, hr] at hd
  | trig n =>
    cases hq : v.trig n with
    | searching q =>
      obtain rfl : Deed.asked n q = d := by simpa [Reject.deed, hq] using hd
      exact h.query n q hq
    | idle | pended code | counting code cur | counted code | searched found | written =>
      simp [Reject.deed, hq] at hd
  | sample r | reset | kick n code => cases hd

/-- The other station's task stays, and this one goes on to `pc`. -/
lemma query_of_setTrig {n : Station} {pc : Trig}
    (h : ∀ n q, v.trig n = .searching q → q.isCount = countsAt cfg n)
    (hpc : ∀ q, pc = .searching q → q.isCount = countsAt cfg n) (n' : Station) (q : Query)
    (hq : (v.setTrig n pc).trig n' = .searching q) : q.isCount = countsAt cfg n' := by
  by_cases hn : n' = n
  · subst hn
    rw [trig_setTrig_self] at hq
    exact hpc q hq
  · rw [trig_setTrig_of_ne hn] at hq
    exact h n' q hq

lemma Ready.step (h : v.Ready cfg P) (hl : ∀ r, l = .sample r → P r)
    (hs : v.step cfg l = some v') : v'.Ready cfg P := by
  have hno := h.noCount.step hs
  cases step_inv hs with
  | link r hr => exact ⟨hno, by rintro r ⟨⟩, h.query⟩
  | clear n pc hd hpc =>
    refine ⟨hno, fun r hr => ?_, h.query⟩
    cases hpc.symm.trans hr
  | search n q hq =>
    refine ⟨hno, fun r hr => ?_, fun n' q' hq' => ?_⟩
    · rw [search] at hr
      split at hr <;> exact h.sample r hr
    · rw [trig_search_eq] at hq'
      exact query_of_setTrig h.query (by rintro q ⟨⟩) n' q' hq'
  | command n found hf =>
    refine ⟨hno, h.sample, query_of_setTrig h.query ?_⟩
    rintro q ⟨⟩
  | move n pc _ hq ho hpc hkind hwait hfifo htrig hrecv =>
    refine ⟨hno, by rw [hrecv]; exact h.sample, fun n' q' hq' => ?_⟩
    rw [htrig] at hq'
    exact query_of_setTrig h.query (hkind h.noCount) n' q' hq'
  | other _ _ hd hwait hfifo htrig hsample =>
    refine ⟨hno, fun r hr => ?_, by rw [htrig]; exact h.query⟩
    rcases hsample r hr with hr | rfl
    · exact h.sample r hr
    · exact hl r rfl

lemma ready_init : init.Ready cfg P :=
  ⟨noCount_init, by rintro r ⟨⟩, by rintro n q ⟨⟩⟩

/-- In a run whose samples have the property every deed is sound. -/
lemma sound_deeds (ls : List Label) (h : v.Ready cfg P) (hls : ∀ r, .sample r ∈ ls → P r) :
    ∀ d ∈ v.deeds cfg ls, d.Sound cfg P := by
  induction ls generalizing v with
  | nil =>
    intro d hd
    cases hd
  | cons l ls ih =>
    intro d hd
    rw [deeds] at hd
    cases hs : v.step cfg l with
    | none => simp [hs] at hd
    | some v' =>
      simp only [hs, List.mem_append, Option.mem_toList] at hd
      rcases hd with hd | hd
      · exact h.deed hd
      · have hl : ∀ r, l = .sample r → P r := by
          rintro r rfl
          exact hls r List.mem_cons_self
        exact ih (h.step hl hs) (fun r hr => hls r (List.mem_cons_of_mem _ hr)) d hd

end Reject

/-! ## Two ways to tell the products apart -/

namespace Products

/-- The product of a sample is its count, and a search by count is for this product. -/
def byCount : Products UInt32 where
  ofSample r := r.count
  ofQuery
    | .count c => some c
    | .wheelCode _ => none

/-- The samples for a station among some labels. -/
def samplesFor (n : Station) (ls : List Label) : List SampleResult :=
  ls.filterMap fun
    | .sample r => if r.pos = n.pos then some r else none
    | _ => none

/-- The product of a sample is its wheel code, and a search by wheel code is for the product whose
sample lies where the trigger does, if there is one. -/
def byWheelCode (cfg : SysConfig) (n : Station) (samples : List SampleResult) :
    Products UInt64 where
  ofSample r := r.wheelCode
  ofQuery
    | .count _ => none
    | .wheelCode w => (samples.find? (wheelCodeTest cfg n w)).map SampleResult.wheelCode

variable {cfg : SysConfig} {n : Station} {ds : List Deed} {ls : List Label}

lemma mem_samplesFor {r : SampleResult} : r ∈ samplesFor n ls ↔ .sample r ∈ ls ∧ r.pos = n.pos := by
  rw [samplesFor, List.mem_filterMap]
  constructor
  · rintro ⟨l, hl, hr⟩
    cases l with
    | sample r' =>
      dsimp only at hr
      split at hr
      · next hpos =>
        obtain rfl : r' = r := by simpa using hr
        exact ⟨hl, hpos⟩
      · cases hr
    | reset | recv | kick n' code | trig n' => cases hr
  · rintro ⟨hl, hpos⟩
    exact ⟨_, hl, if_pos hpos⟩

lemma fits_byCount {P : SampleResult → Prop} (hn : countsAt cfg n = true)
    (h : ∀ d ∈ ds, d.Sound cfg P) : byCount.Fits n cfg ds := by
  intro r q _ _ hq
  have hkind := (h _ hq).trans hn
  cases q with
  | count c =>
    change countTest c r = true ↔ some c = some r.count
    rw [countTest, beq_iff_eq, Option.some_inj, eq_comm]
  | wheelCode w => cases hkind

/-- The samples of a product pass the same tests. -/
lemma wheelCodeTest_congr {w : UInt64} {r r' : SampleResult} (h : r.wheelCode = r'.wheelCode) :
    wheelCodeTest cfg n w r = wheelCodeTest cfg n w r' := by
  rw [Bool.eq_iff_iff, wheelCodeTest_iff, wheelCodeTest_iff, h]

lemma fits_byWheelCode {samples : List SampleResult}
    (hn : countsAt cfg n = false) (h : ∀ d ∈ ds, d.Sound cfg fun r => r.pos = n.pos → r ∈ samples)
    (hsep : ∀ r ∈ samples, ∀ r' ∈ samples, r.wheelCode ≠ r'.wheelCode → Separated cfg r r') :
    (byWheelCode cfg n samples).Fits n cfg ds := by
  intro r q hr hpos hq
  have hkind := (h _ hq).trans hn
  have hmem : r ∈ samples := h _ hr hpos
  cases q with
  | count c => cases hkind
  | wheelCode w =>
    change wheelCodeTest cfg n w r = true ↔
      (samples.find? (wheelCodeTest cfg n w)).map SampleResult.wheelCode = some r.wheelCode
    constructor
    · intro htest
      cases hfind : samples.find? (wheelCodeTest cfg n w) with
      | none => exact absurd htest (List.find?_eq_none.1 hfind r hmem)
      | some r' =>
        by_contra hne
        have hfar := hsep r hmem r' (List.mem_of_find?_eq_some hfind) fun heq => hne (by simp [heq])
        exact absurd (List.find?_some hfind) (by simp [hfar.not_both htest])
    · intro hfind
      obtain ⟨r', hr', heq⟩ := Option.map_eq_some_iff.1 hfind
      rw [← wheelCodeTest_congr heq]
      exact List.find?_some hr'

end Products

namespace Sys

/-- What a run does to the samples. -/
def deeds (cfg : SysConfig) : Sys → List Label → List Deed
  | _, [] => []
  | s, l :: ls =>
    match s.step cfg l with
    | none => []
    | some s' => (s.view.deed l).toList ++ deeds cfg s' ls

variable {cfg : SysConfig} {s : Sys} {leaked : List Buffer}

lemma deeds_view (ls : List Label) (h : s.PoolInvUpTo leaked) :
    s.deeds cfg ls = s.view.deeds cfg ls := by
  induction ls generalizing s leaked with
  | nil => rfl
  | cons l ls ih =>
    rw [deeds, Reject.deeds, ← view_step h]
    cases hs : s.step cfg l with
    | none => rfl
    | some s' =>
      obtain ⟨lost, hinv, -⟩ := poolInv_step h (step_inv hs)
      exact congrArg _ (ih hinv)

/-- The station after a run is the stock that the deeds of the run make. -/
lemma kept_of_exec {κ : Type*} [DecidableEq κ] {p : Products κ} {n : Station}
    {memory : Buffer → SampleArray} {ls : List Label}
    (hfits : p.Fits n cfg ((init memory).deeds cfg ls))
    (hs : exec (step cfg) (init memory) ls = some s) :
    p.Kept n ((init memory).deeds cfg ls) s.view := by
  have hrun : _ = exec (Reject.step cfg) _ ls := view_exec (poolInv_init memory) ls
  rw [hs] at hrun
  have hdeeds : (init memory).deeds cfg ls = [] ++ (init memory).view.deeds cfg ls :=
    deeds_view ls (poolInv_init memory)
  rw [hdeeds] at hfits ⊢
  refine Products.kept_exec ls ?_ hfits hrun.symm
  rw [view_init]
  exact ⟨rfl, by rintro r ⟨⟩, rfl⟩

lemma sound_deeds (memory : Buffer → SampleArray) (ls : List Label) :
    ∀ d ∈ (init memory).deeds cfg ls, d.Sound cfg fun r => .sample r ∈ ls := by
  rw [deeds_view ls (poolInv_init memory), view_init]
  exact Reject.sound_deeds ls Reject.ready_init fun r hr => hr

/-- A sample with count 2 and two triggers, of which the first one counts 1. -/
def secondProduct : List Label :=
  [.sample { frame 1 with count := 2 }, .recv, .recv, .kick .one 0, .kick .one 0]
    ++ List.replicate 14 (.trig .one)

def afterSecond : Sys :=
  (exec (step SysConfig.default) (init zeroMemory) secondProduct).getD (init zeroMemory)

end Sys

/-- The search that a trigger was posted for. -/
def Query.ofKick (k : Kick) : Query → Query
  | .count c => .count c
  | .wheelCode _ => .wheelCode k.code

lemma Query.For.ofKick {cfg : SysConfig} {n : Station} {k : Kick} {q : Query}
    (h : q.For cfg n k) : q.ofKick k = q := by
  rw [Query.For] at h
  split at h
  · cases q with
    | count c => rfl
    | wheelCode w => cases h
  · rw [h]
    rfl

namespace Sys

/-- What a step does to the samples, where a search is taken for the one that its trigger was posted
for, whatever wheel code its task has read. -/
def deedOfKick (s : Sys) : Label → Option Deed
  | .trig n =>
    match s.trig n with
    | .searching k q _ => some (.asked n (q.ofKick k))
    | _ => none
  | l => s.view.deed l

/-- What a run does to the samples, with the searches that the triggers were posted for. -/
def deedsOfKicks (cfg : SysConfig) : Sys → List Label → List Deed
  | _, [] => []
  | s, l :: ls =>
    match s.step cfg l with
    | none => []
    | some s' => (s.deedOfKick l).toList ++ deedsOfKicks cfg s' ls

lemma OwnCodes.deed (h : OwnCodes cfg s) (l : Label) : s.deedOfKick l = s.view.deed l := by
  cases l with
  | trig n =>
    have hview : s.view.trig n = (s.trig n).view := rfl
    have hfor := h.trig n
    rw [deedOfKick, Reject.deed, hview]
    cases hpc : s.trig n with
    | searching k q era =>
      rw [hpc] at hfor
      have hk : q.ofKick k = q := Query.For.ofKick hfor
      simp only [TrigPc.view, hk]
    | idle | pended | counting | counted | searched | written => rfl
  | sample | reset | recv | kick => rfl

/-- Where the wheel codes are read as they were posted, the searches made are those that the triggers
were posted for. -/
lemma deedsOfKicks_eq (ls : List Label) (h : OwnCodes cfg s)
    (hintact : Allowed (step cfg) (ReadsIntact cfg) s ls) :
    s.deedsOfKicks cfg ls = s.deeds cfg ls := by
  induction ls generalizing s with
  | nil => rfl
  | cons l ls ih =>
    rw [deedsOfKicks, deeds, h.deed l]
    cases hs : s.step cfg l with
    | none => rfl
    | some s' => exact congrArg _ (ih (h.step hintact.1 (step_inv hs)) (hintact.2 s' hs))

/-- Samples at 500 and 5000 for station 2, and three triggers, each searched for before the next one
comes: one for the second sample, one for nothing, and one for the first. -/
def twoWheelCodes : List Label :=
  [500, 5000].flatMap (fun w => [.sample { frame 2 with wheelCode := w }, .recv, .recv])
    ++ [8000, 6000, 3500].flatMap fun w => .kick .two w :: List.replicate 5 (.trig .two)

def afterWheelCodes : Sys :=
  (exec (step SysConfig.default) (init zeroMemory) twoWheelCodes).getD (init zeroMemory)

/-- With both triggers posted before the first search, each search is for the second sample. -/
example : (exec (step SysConfig.default) (init zeroMemory)
    ([500, 5000].flatMap (fun w => [.sample { frame 2 with wheelCode := w }, .recv, .recv])
      ++ [.kick .two 3500, .kick .two 8000] ++ List.replicate 10 (.trig .two))).map
        (fun s => s.view.told .two) = some [true, false] := by decide +kernel

end Sys

end RejectProcess
