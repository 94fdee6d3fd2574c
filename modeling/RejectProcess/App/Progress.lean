import RejectProcess.App.ProgramRefines

/-!
# The handlers return

A handler waits for no other task but at the locks, and a locked region is one step here; no mailbox
is full when a message is posted.  So while the receive task is in `local_cmd_analyze` it can always
go on, and after seven of its steps at most it is back, or the process has ended.
-/

namespace RejectProcess

open Lib Position
open Publish (PosList)

namespace Position

/-- The steps that a task that stores a record has left. -/
def prodLeft : ProdPc → ℕ
  | .idle => 0
  | .produce (.sample _ _) => 2
  | .produce (.kick _ _) => 3
  | .fill _ _ => 2
  | .link _ _ => 1

/-- The steps that `recv_sample_result` has left in storing its record. -/
def State.storeLeft (t : State) : ℕ :=
  prodLeft (t.line (.c1Kt .one)).prod + prodLeft (t.line (.c1Kt .two)).prod

variable {t t' : State}

lemma State.SameRecv.storeLeft (h : t.SameRecv t') : t'.storeLeft = t.storeLeft := by
  rw [State.storeLeft, h .one, h .two, State.storeLeft]

lemma State.RecvIdle.storeLeft (h : t.RecvIdle) : t.storeLeft = 0 := by
  rw [State.storeLeft, h .one, h .two]
  rfl

/-- At most one record is stored for a sample. -/
lemma storeLeft_sample {count : UInt32} {wheelCode : UInt64}
    (hs : t.step (.sample count wheelCode) = some t') : t'.storeLeft ≤ 2 := by
  obtain ⟨hidle, rfl⟩ : t.RecvIdle ∧ t.recvSampleResult count wheelCode = t' := by
    simpa [State.step] using hs
  rw [State.recvSampleResult]
  split_ifs
  · rw [State.storeLeft, State.line_setLine_self, State.line_setLine_of_ne (by decide), hidle .two]
    exact Nat.le_refl 2
  · rw [State.storeLeft, State.line_setLine_self, State.line_setLine_of_ne (by decide), hidle .one]
    exact Nat.le_refl 2
  · rw [hidle.storeLeft]
    exact Nat.zero_le 2

/-- A step of `recv_sample_result` leaves one step less. -/
lemma storeLeft_recv {n : Station} (hs : t.step (.recv n) = some t') :
    t'.storeLeft + 1 = t.storeLeft := by
  obtain ⟨L, hL, rfl⟩ := Option.map_eq_some_iff.1 hs
  have hlt : prodLeft L.prod + 1 = prodLeft (t.line (.c1Kt n)).prod := by
    rw [Line.stepProd] at hL
    cases hp : (t.line (.c1Kt n)).prod with
    | idle => simp [hp] at hL
    | produce r =>
      rw [hp] at hL
      obtain ⟨x, -, rfl⟩ := Option.map_eq_some_iff.1 hL
      cases r <;> rfl
    | fill r b =>
      rw [hp] at hL
      obtain rfl := Option.some.inj hL
      rfl
    | link r b =>
      rw [hp] at hL
      obtain rfl := Option.some.inj hL
      rfl
  cases n with
  | one =>
    rw [State.storeLeft, State.line_setLine_self, State.line_setLine_of_ne (by decide),
      State.storeLeft]
    omega
  | two =>
    rw [State.storeLeft, State.line_setLine_self, State.line_setLine_of_ne (by decide),
      State.storeLeft]
    omega

end Position

namespace Program

variable {cfg : SysConfig} {version : Vector UInt8 32} {p p' : Program} {a : Label}

/-- `local_cmd_analyze` goes on. -/
def Label.isHandle : Label → Bool
  | .handle => true
  | _ => false

/-- The steps that the receive task has left up to the return from `local_cmd_analyze`, or as many
as it has at most in the next call. -/
def left (p : Program) : ℕ :=
  match p.handler with
  | .idle => 7
  | .sample _ => Machine.recvLeft p.machine.sys.recv + 4
  | .store => p.tests.storeLeft + 1
  | .reset => Machine.recvLeft p.machine.sys.recv + 1
  | .posTest => Machine.commandLeft p.machine.isr.recv + 1

lemma left_sample {r : SampleResult} (hh : p.handler = .sample r) :
    p.left = Machine.recvLeft p.machine.sys.recv + 4 := by rw [left, hh]

lemma left_store (hh : p.handler = .store) : p.left = p.tests.storeLeft + 1 := by rw [left, hh]

lemma left_reset (hh : p.handler = .reset) :
    p.left = Machine.recvLeft p.machine.sys.recv + 1 := by rw [left, hh]

lemma left_posTest (hh : p.handler = .posTest) :
    p.left = Machine.commandLeft p.machine.isr.recv + 1 := by rw [left, hh]

lemma left_pos (p : Program) : 1 ≤ p.left := by
  rw [left]
  cases p.handler <;> simp

/-- What is left depends on where the receive task stands. -/
lemma left_congr (hh : p'.handler = p.handler) (hsys : p'.machine.sys.recv = p.machine.sys.recv)
    (hisr : p'.machine.isr.recv = p.machine.isr.recv)
    (hstore : p'.tests.storeLeft = p.tests.storeLeft) : p'.left = p.left := by
  rw [left, left, hh, hsys, hisr, hstore]

/-- A call of `local_cmd_analyze` is paid for by the seven steps of the call. -/
lemma left_call {o : Order} (hh : p.handler = .idle) (hp : p.call cfg version o = some p') :
    1 + p'.left + 7 * p.handled ≤ 7 * p'.handled + p.left := by
  have hleft : p.left = 7 := by rw [left, hh]
  rw [hleft]
  cases o with
  | handshake | other =>
    obtain rfl := Option.some.inj hp
    change 1 + 7 + 7 * p.handled ≤ 7 * (p.handled + 1) + 7
    omega
  | reset =>
    obtain ⟨m, hm, hp⟩ := Option.bind_eq_some_iff.1 hp
    obtain ⟨t, ht, rfl⟩ := Option.map_eq_some_iff.1 hp
    change 1 + (Machine.recvLeft m.sys.recv + 1) + 7 * p.handled ≤ 7 * p.handled + 7
    rw [(Machine.step_reset hm).1, Machine.recvLeft]
    omega
  | sample r =>
    obtain ⟨m, hm, rfl⟩ := Option.map_eq_some_iff.1 hp
    change 1 + (Machine.recvLeft m.sys.recv + 4) + 7 * p.handled ≤ 7 * p.handled + 7
    rcases (Machine.step_sample hm).2 with hrecv | hrecv
    · rw [hrecv, Machine.recvLeft]
      omega
    · rw [hrecv, Machine.recvLeft]
      omega
  | posTest item =>
    obtain ⟨m, hm, hp⟩ := Option.bind_eq_some_iff.1 hp
    obtain ⟨t, ht, rfl⟩ := Option.map_eq_some_iff.1 hp
    have hlen : (Mask.recvPosTestCmd item).length ≤ 2 := by
      rw [Mask.recvPosTestCmd]
      split_ifs <;> simp
    change 1 + (Machine.commandLeft m.isr.recv + 1) + 7 * p.handled ≤ 7 * p.handled + 7
    rw [(Machine.step_command hm).2.1, Machine.commandLeft]
    omega

/-- A step of the handler in the machine leaves one step less, or the process has ended. -/
lemma left_run (h : p.Inv) {m : Machine} (hh : p.InMachine)
    (hm : p.machine.step cfg .recv = some m) :
    (p.withMachine m).left + 1 ≤ p.left ∨ (p.withMachine m).left = p.left ∧ m.exited = true := by
  rcases hh with ⟨hlists, hbusy⟩ | ⟨hpos, hbusy⟩
  · have hisr : p.machine.isr.recv = .idle := by
      refine h.isr ?_
      rintro he
      rcases hlists with ⟨r, hr⟩ | hr
      · cases he.symm.trans hr
      · cases he.symm.trans hr
    obtain ⟨hs, hsame⟩ := Machine.step_recv_sys hisr hm
    have hrecv : Machine.recvLeft m.sys.recv + 1 ≤ Machine.recvLeft p.machine.sys.recv ∨
        m.sys.recv = p.machine.sys.recv ∧ m.sys.exited = true := by
      generalize m.sys = s at hs
      cases Sys.step_inv hs with
      | crash => exact .inr ⟨rfl, rfl⟩
      | produce r buf f hrecv | link r buf hrecv | zero hrecv | clear1 hrecv | clear2 hrecv
      | reply hrecv | finish hrecv =>
        rw [hrecv]
        exact .inl (Nat.le_refl _)
    rcases hrecv with hlt | ⟨hrecv, hex⟩
    · left
      have hlt' : Machine.recvLeft (p.withMachine m).machine.sys.recv + 1 ≤
          Machine.recvLeft p.machine.sys.recv := hlt
      rcases hlists with ⟨r, hr⟩ | hr
      · rw [left_sample (p := p.withMachine m) hr, left_sample hr]
        omega
      · rw [left_reset (p := p.withMachine m) hr, left_reset hr]
        omega
    · refine .inr ⟨left_congr rfl hrecv ?_ rfl, ?_⟩
      · exact congrArg Isr.State.recv hsame
      · rw [Machine.exited, hex, Bool.or_true]
  · obtain ⟨hs, -⟩ := Machine.step_recv_isr hbusy hm
    left
    rw [left_posTest (p := p.withMachine m) hpos, left_posTest hpos]
    change Machine.commandLeft m.isr.recv + 1 + 1 ≤ _
    generalize m.isr = i at hs
    cases Isr.State.step_inv hs with
    | done hrecv | read _ _ _ hrecv | write _ _ _ _ hrecv =>
      rw [hrecv]
      simp only [Machine.commandLeft, List.length_nil, List.length_cons]
      omega

/-- Every step of the receive task in a handler brings it nearer to the return or ends the process,
and the other tasks leave it where it is. -/
lemma left_step (h : p.Inv) (hs : Step cfg version p a p') :
    (if a.isHandle then 1 else 0) + p'.left + 7 * p.handled ≤ 7 * p'.handled + p.left ∨
      p'.ended = true ∧ p'.left = p.left := by
  have hstay : a.isHandle = false → p'.left = p.left → p'.handled = p.handled →
      (if a.isHandle then 1 else 0) + p'.left + 7 * p.handled ≤ 7 * p'.handled + p.left := by
    intro ha hleft hhandled
    rw [ha, hleft, hhandled, if_neg Bool.false_ne_true]
    omega
  cases hs with
  | link _ l k hl hrecv hk =>
    refine .inl (hstay ?_ rfl rfl)
    cases a <;> first | rfl | cases hl
  | call c _ hh hc hp => exact .inl (left_call hh hp)
  | written r t hh hidle ht =>
    left
    have hle := storeLeft_sample ht
    rw [left_store (p := (p.withTests t).enter .store) rfl, left_sample hh]
    change 1 + (t.storeLeft + 1) + 7 * p.handled ≤ 7 * p.handled + (_ + 4)
    omega
  | run m hh hm =>
    rcases left_run h hh hm with hlt | ⟨hsame, hex⟩
    · left
      change 1 + (p.withMachine m).left + 7 * p.handled ≤ 7 * p.handled + p.left
      omega
    · refine .inr ⟨?_, hsame⟩
      rw [ended, hex, Bool.or_true]
  | store n t hh hn ht =>
    left
    have hlt := storeLeft_recv ht
    rw [left_store (p := p.withTests t) hh, left_store hh]
    change 1 + (t.storeLeft + 1) + 7 * p.handled ≤ 7 * p.handled + (p.tests.storeLeft + 1)
    omega
  | full | crashKp | crashReply | crashDis => exact .inr ⟨rfl, rfl⟩
  | done hd =>
    left
    have hleft : 1 ≤ p.left := left_pos p
    change 1 + 7 + 7 * p.handled ≤ 7 * (p.handled + 1) + p.left
    omega
  | machine _ b m hb hisr htests hm =>
    have hframe := Machine.frame_step (besideRecv_of_machine hb) hisr hm
    refine .inl (hstay ?_ (left_congr rfl hframe.sys hframe.isr rfl) rfl)
    cases a <;> first | rfl | cases hb
  | isr n clock m t hm ht =>
    obtain ⟨hsys, hisr, haside, -⟩ := step_isr h.events h.agree hm ht
    exact .inl (hstay rfl (left_congr rfl hsys hisr haside.recv.storeLeft) rfl)
  | writeKp n t ht =>
    obtain ⟨-, -, hkeep, -⟩ := Position.State.frame_writeKp ht
    exact .inl (hstay rfl (left_congr rfl rfl rfl hkeep.storeLeft) rfl)
  | dis l t ht =>
    obtain ⟨-, -, hkeep, -⟩ := Position.State.frame_dis ht
    exact .inl (hstay rfl (left_congr rfl rfl rfl hkeep.storeLeft) rfl)

/-- A call that has not returned is not counted. -/
lemma handled_step (hs : Step cfg version p a p') (hne : p'.handler ≠ .idle) :
    p'.handled = p.handled := by
  cases hs with
  | call c _ hh hc hp =>
    cases ho : c.order with
    | handshake | other =>
      rw [ho] at hp
      obtain rfl := Option.some.inj hp
      exact absurd rfl hne
    | reset | posTest item =>
      rw [ho] at hp
      obtain ⟨m, hm, hp⟩ := Option.bind_eq_some_iff.1 hp
      obtain ⟨t, ht, rfl⟩ := Option.map_eq_some_iff.1 hp
      rfl
    | sample r =>
      rw [ho] at hp
      obtain ⟨m, hm, rfl⟩ := Option.map_eq_some_iff.1 hp
      rfl
  | done hd => exact absurd rfl hne
  | _ => rfl

/-- No call has more than seven steps left. -/
lemma left_le_step (h : p.Inv) (hle : p.left ≤ 7) (hs : Step cfg version p a p') :
    p'.left ≤ 7 := by
  by_cases hidle : p'.handler = .idle
  · rw [left, hidle]
  · have hhandled := handled_step hs hidle
    rcases left_step h hs with hlt | ⟨-, hsame⟩
    · omega
    · rwa [hsame]

/-- The steps of the receive task in its handlers, over a run that leaves the process alive. -/
lemma left_exec {ls : List Label} (h : p.Inv)
    (hs : exec (step cfg version) p ls = some p') (halive : p'.ended = false) :
    ls.countP Label.isHandle + p'.left + 7 * p.handled ≤ 7 * p'.handled + p.left := by
  induction ls generalizing p with
  | nil =>
    obtain rfl : p = p' := by simpa using hs
    rw [List.countP_nil]
    omega
  | cons a ls ih =>
    rw [exec_cons, Option.bind_eq_some_iff] at hs
    obtain ⟨p₁, hstep, hs⟩ := hs
    have hone := left_step h (step_inv hstep).2
    have hrest := ih (h.step (step_inv hstep).2) hs
    rw [List.countP_cons]
    rcases hone with hlt | ⟨hover, -⟩
    · omega
    · -- the process has ended, and nothing follows
      cases ls with
      | nil =>
        obtain rfl : p₁ = p' := by simpa using hs
        cases halive.symm.trans hover
      | cons b bs =>
        have hnone : p₁.step cfg version b = none := if_pos hover
        rw [exec_cons, hnone] at hs
        cases hs

/-! ## Nothing blocks -/

/-- The receive task can call a handler. -/
lemma call_isSome (h : p.Inv) (hm : p.machine.exited = false) (hh : p.handler = .idle)
    (o : Order) : ∃ p', p.call cfg version o = some p' := by
  have hsys := h.sys (by rw [hh]; rfl)
  have hisr := h.isr (by rw [hh]; rintro ⟨⟩)
  have hstore := h.store (by rw [hh]; rintro ⟨⟩)
  obtain ⟨hi, hs⟩ : p.machine.isr.exited = false ∧ p.machine.sys.exited = false := by
    simpa [Machine.exited] using hm
  cases o with
  | handshake | other => exact ⟨_, rfl⟩
  | reset =>
    have hmachine : p.machine.step cfg .reset =
        some (p.machine.withSys { p.machine.sys with gSysResetFlag := 1, recv := .zero }) := by
      simp [Machine.step, hm, hisr, Sys.step, hs, hsys]
    have htests : p.tests.step .reset = some p.tests.recvResetCmd := if_pos hstore
    exact ⟨_, by rw [call, hmachine, Option.bind_some, htests]; rfl⟩
  | sample r =>
    have hmachine : p.machine.step cfg (.sample r) = some (p.machine.withSys
        { p.machine.sys with recv := if r.pos ≠ 0 then .produce r else .idle }) := by
      simp [Machine.step, hm, hisr, Sys.step, hs, hsys]
    exact ⟨_, by rw [call, hmachine]; rfl⟩
  | posTest item =>
    have hmachine : p.machine.step cfg (.command item) = some (p.machine.withIsr
        { p.machine.isr with
          posTestItem := item, recv := .read (Mask.recvPosTestCmd item) }) := by
      simp [Machine.step, hm, hsys, Isr.State.step, hi, hisr]
    have htests : p.tests.step (.posTest item) = some (p.tests.recvPosTestCmd item) :=
      if_pos hstore
    exact ⟨_, by rw [call, hmachine, Option.bind_some, htests]; rfl⟩

/-- In the machine the handler can go on. -/
lemma run_isSome {m : Machine} (hm : m.exited = false)
    (hbusy : m.sys.recv ≠ .idle ∨ m.isr.recv ≠ .idle) : ∃ m', m.step cfg .recv = some m' := by
  obtain ⟨hi, hs⟩ : m.isr.exited = false ∧ m.sys.exited = false := by
    simpa [Machine.exited] using hm
  by_cases hisr : m.isr.recv = .idle
  · have hrecv : m.sys.recv ≠ .idle := hbusy.resolve_right (not_not_intro hisr)
    obtain ⟨s, hstep⟩ : ∃ s, m.sys.stepRecv = some s := by
      rw [Sys.stepRecv]
      cases hpc : m.sys.recv with
      | idle => exact absurd hpc hrecv
      | produce r => cases m.sys.mem.sampleBuf.produce <;> exact ⟨_, rfl⟩
      | link r buf | zero | clear1 | clear2 | reply | finish => exact ⟨_, rfl⟩
    exact ⟨m.withSys s, by simp [Machine.step, hm, hisr, Sys.step, hs, hstep]⟩
  · obtain ⟨i, hstep⟩ : ∃ i, m.isr.stepRecv = some i := by
      rw [Isr.State.stepRecv]
      cases hpc : m.isr.recv with
      | idle => exact absurd hpc hisr
      | read todo => cases todo <;> exact ⟨_, rfl⟩
      | write n u isrVal todo => exact ⟨_, rfl⟩
    exact ⟨m.withIsr i, by simp [Machine.step, hm, hisr, Isr.State.step, hi, hstep]⟩

/-- While the process runs, the receive task in a handler can go on. -/
lemma stepHandler_isSome (h : p.Inv) (halive : p.ended = false) (hh : p.Handling) :
    ∃ p', p.stepHandler cfg version = some p' := by
  have hm : p.machine.exited = false := (Bool.or_eq_false_iff.1 halive).2
  rw [stepHandler]
  cases hpc : p.handler with
  | idle =>
    obtain ⟨c, hc⟩ : ∃ c, p.link.recv.analyzed[p.handled]? = some c :=
      ⟨_, List.getElem?_eq_getElem hh⟩
    obtain ⟨p', hp⟩ : ∃ p', p.call cfg version c.order = some p' := call_isSome h hm hpc _
    exact ⟨p', by rw [hc]; exact hp⟩
  | sample r =>
    dsimp only
    split
    · have hstore := h.store (by rw [hpc]; rintro ⟨⟩)
      exact ⟨_, congrArg (Option.map _) (if_pos hstore)⟩
    · next hbusy =>
      obtain ⟨m, hstep⟩ : ∃ m, p.machine.step cfg .recv = some m := run_isSome hm (.inl hbusy)
      exact ⟨_, by rw [hstep]; rfl⟩
  | store =>
    dsimp only
    cases p.storing with
    | none => exact ⟨_, rfl⟩
    | some n =>
      dsimp only
      cases p.tests.step (.recv n) <;> exact ⟨_, rfl⟩
  | reset =>
    dsimp only
    split
    · exact ⟨_, rfl⟩
    · next hbusy =>
      obtain ⟨m, hstep⟩ : ∃ m, p.machine.step cfg .recv = some m := run_isSome hm (.inl hbusy)
      exact ⟨_, by rw [hstep]; rfl⟩
  | posTest =>
    dsimp only
    split
    · exact ⟨_, rfl⟩
    · next hbusy =>
      obtain ⟨m, hstep⟩ : ∃ m, p.machine.step cfg .recv = some m := run_isSome hm (.inr hbusy)
      exact ⟨_, by rw [hstep]; rfl⟩

/-- **The handlers return.**  Whatever the other tasks and the client do: while the receive task is
in `local_cmd_analyze` it can go on, and when it has taken seven more steps there, the call that it
was in has returned, or the process has ended. -/
theorem handlers_return (cfg : SysConfig) (version : Vector UInt8 32) (param : Mem)
    (isrClr : Station → UInt16) (memory : Buffer → SampleArray)
    (posMemory : PosList → Buffer → PositionArray) (ls : List Label) (p : Program)
    (h : exec (step cfg version) (init param isrClr memory posMemory) ls = some p)
    (halive : p.ended = false) (hcall : p.Handling) :
    (∃ p', p.step cfg version .handle = some p') ∧
      ∀ ks p', exec (step cfg version) p ks = some p' → 7 ≤ ks.countP Label.isHandle →
        p.handled < p'.handled ∨ p'.ended = true := by
  have h0 : (init param isrClr memory posMemory).Inv ∧
      (init param isrClr memory posMemory).left ≤ 7 := ⟨inv_init .., Nat.le_refl 7⟩
  have hI : ∀ q b q', (q.Inv ∧ q.left ≤ 7) → step cfg version q b = some q' →
      q'.Inv ∧ q'.left ≤ 7 := fun q b q' hq hs =>
    ⟨hq.1.step (step_inv hs).2, left_le_step hq.1 hq.2 (step_inv hs).2⟩
  obtain ⟨hinv, hle⟩ := (reach_any ls h).invariant h0 fun q b q' hq _ hs => hI q b q' hq hs
  refine ⟨?_, fun ks p' hks hseven => ?_⟩
  · obtain ⟨p', hp⟩ : ∃ p', p.stepHandler cfg version = some p' :=
      stepHandler_isSome hinv halive hcall
    refine ⟨p', ?_⟩
    rw [step, if_neg (Bool.eq_false_iff.1 halive)]
    exact hp
  · cases hover : p'.ended with
    | true => exact .inr rfl
    | false =>
      left
      have hspent := left_exec hinv hks hover
      have hpos := left_pos p'
      omega

/-- The reset of `resetAndTest` has been read, and is not yet handled. -/
theorem handlers_return_reset : ∃ p,
    exec (step SysConfig.default (Vector.replicate 32 0)) start (resetAndTest.take 7) = some p ∧
      (∃ p', p.step SysConfig.default (Vector.replicate 32 0) .handle = some p') ∧
      ∀ ks p', exec (step SysConfig.default (Vector.replicate 32 0)) p ks = some p' →
        7 ≤ ks.countP Label.isHandle → p.handled < p'.handled ∨ p'.ended = true := by
  obtain ⟨⟨p, hp⟩, hcall⟩ := show
      (∃ p, exec (step SysConfig.default (Vector.replicate 32 0)) start (resetAndTest.take 7) =
        some p) ∧
      ((exec (step SysConfig.default (Vector.replicate 32 0)) start (resetAndTest.take 7)).map
        fun p => decide (p.ended = false ∧ p.Handling)) = some true from
    ⟨Option.isSome_iff_exists.1 (by decide +kernel), by decide +kernel⟩
  rw [hp, Option.map_some, Option.some.injEq, decide_eq_true_eq] at hcall
  exact ⟨p, hp, handlers_return _ _ _ _ _ _ _ p hp hcall.1 hcall.2⟩

end Program

end RejectProcess
