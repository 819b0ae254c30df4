import Lan80xx.Poe.Commands

/-!
# PoE controller: the port matrix

The controller numbers its logical ports 0 to 47 and maps each of them to one or two channels of the PoE chips.
`pd69200_active_matrix_verify` reads the mapping of one port after another, compares it with the port map of the board
and writes what is wrong to a temporary matrix, which its callers then make the active one.

- `runs_verifyFrom`: what the loop has read and written when it comes to its end;
- `active_matrix_verify_iff`: when a verified matrix is right, and when every wrong port has been written before the commit;
- `sync_of_answers`: a run over the bus is the run of a controller that answers as the bus has done.
-/

namespace Lan80xx.Poe

open RegBus Fallible

/-! ## Commands -/

/-- The commands for the matrix. A port is a `handle`. -/
inductive MatrixCmd
  | getActive (port : Nat)
  | setTemporary (port : Nat) (physA physB : Byte)
  | programGlobal
  deriving DecidableEq

/-- The message of a command. The last one initialises 14 of its 15 bytes. -/
def MatrixCmd.msg : MatrixCmd → Msg
  | .getActive port => message [requestKey, 0x00#8, 0x05#8, 0x44#8, channelOf port]
  | .setTemporary port physA physB => message [commandKey, 0x00#8, 0x05#8, 0x43#8, channelOf port, physA, physB]
  | .programGlobal => message ([commandKey, 0x00#8, 0x07#8, 0x43#8] ++ List.replicate 10 dummyByte ++ [0x00#8])

/-- A command, and the return code and the buffer of its transaction. -/
structure MatrixExchange where
  cmd : MatrixCmd
  rc : Rc
  rx : Msg
  deriving DecidableEq

/-- What commands are sent over: `pd69200_tx_rx` on some state, or nothing for a transaction that has not come to its
end. -/
abbrev Link (σ : Type) := MatrixCmd → σ → Option ((Rc × Msg) × σ)

/-- A call with the log of its transactions. -/
abbrev MatrixCall (σ α : Type) := EStateM (Option Rc) (σ × List MatrixExchange) α

/-- The link over the bus. -/
def busLink {H : Type} (bus : I2c H) (fuel : Nat) : Link (Inst H) := fun c s => pd69200TxRx bus fuel c.msg s

/-- A controller, by the return code and the buffer that a command ends with. -/
abbrev Controller := MatrixCmd → Rc × Msg

/-- The link to a controller. -/
def Controller.link (c : Controller) : Link Unit := fun cmd _ => some (c cmd, ())

/-! ## The port map -/

/-- `meba_poe_port_properties_t`: the capability `MEBA_POE_PORT_CAP_POE` and the channels. -/
structure PortProperties where
  capPoe : Bool
  physPortA : BitVec 32
  physPortB : BitVec 32

/-- `inst->port_map` -/
abbrev PortMap := Nat → PortProperties

/-- `POE_MAX_LOGICAL_PORTS` -/
def poeMaxLogicalPorts : Nat := 48

/-! ## The verification -/

section Verify

variable {σ : Type} (link : Link σ) (map : PortMap) (ports : Byte)

/-- `MESA_RC(pd69200_tx_rx(..))` with the buffer of a command. -/
def transactMatrix (c : MatrixCmd) : MatrixCall σ Msg := fun s =>
  match link c s.1 with
  | none => .error none s
  | some ((rc, rx), t) =>
    if rc = .ok then .ok rx (t, s.2 ++ [⟨c, rc, rx⟩]) else .error (some rc) (t, s.2 ++ [⟨c, rc, rx⟩])

/-- `meba_poe_pd69200_get_active_matrix` -/
def getActiveMatrix (port : Nat) : MatrixCall σ (Byte × Byte) := do
  let buf ← transactMatrix link (.getActive port)
  pure (buf.byte 2, buf.byte 3)

/-- `meba_poe_pd69200_set_temporary_matrix` -/
def setTemporaryMatrix (port : Nat) (physA physB : Byte) : MatrixCall σ Unit := do
  let _ ← transactMatrix link (.setTemporary port physA physB)

/-- `pd69200_program_global_matrix` -/
def programGlobalMatrix : MatrixCall σ Unit := do
  let _ ← transactMatrix link .programGlobal

/-- The second channel of a port with two pairs is reported as 78. -/
def readPortB (b : Byte) : Byte := if b = 78#8 then 255#8 else b

/-- `port_a` and `port_b` when `bMatrixUpdateNeeded` gets true. -/
def updateNeeded (i : Nat) (a b : Byte) : Option (Byte × Byte) :=
  if i < ports.toNat then
    if (map i).capPoe then
      if a.setWidth 32 ≠ (map i).physPortA ∨ b.setWidth 32 ≠ (map i).physPortB then
        some ((map i).physPortA.setWidth 8, (map i).physPortB.setWidth 8)
      else none
    else if a ≠ 255#8 ∨ b ≠ 255#8 then some (255#8, 255#8) else none
  else if a ≠ 255#8 ∨ b ≠ 255#8 then some (255#8, 255#8) else none

/-- `continue_to_update` gets false. -/
def stopsAt (i : Nat) (a b : Byte) : Bool := ¬i < ports.toNat ∧ a = 255#8 ∧ b = 255#8

/-- `port_a` and `port_b` as the loop compares them. -/
def readPort (i : Nat) : MatrixCall σ (Byte × Byte) := do
  let phys ← getActiveMatrix link i
  pure (phys.1, readPortB phys.2)

/-- The new value of `bNeedToSaveMatrix`. -/
def correctPort (i : Nat) (phys : Byte × Byte) (save : Bool) : MatrixCall σ Bool :=
  match updateNeeded map ports i phys.1 phys.2 with
  | some new => do
    setTemporaryMatrix link i new.1 new.2
    pure true
  | none => pure save

/-- The loop over `n` ports from `i` on. It returns `bNeedToSaveMatrix`. -/
def verifyFrom : Nat → Nat → Bool → MatrixCall σ Bool
  | 0, _, save => pure save
  | n + 1, i, save => do
    let phys ← readPort link i
    let save ← correctPort link map ports i phys save
    if stopsAt ports i phys.1 phys.2 then pure save else verifyFrom n (i + 1) save

/-- `pd69200_active_matrix_verify` -/
def activeMatrixVerify : MatrixCall σ Unit := do
  let save ← verifyFrom link map ports poeMaxLogicalPorts 0 false
  if save then throw (some .error) else pure ()

/-- The return code of a call, which its caller looks at. -/
def rcOf (x : MatrixCall σ Unit) : MatrixCall σ Rc := fun s =>
  match x s with
  | .ok _ t => .ok .ok t
  | .error none t => .error none t
  | .error (some rc) t => .ok rc t

/-- What the callers make of it: with anything but OK, the matrix is programmed. It returns `bMatrixUpdatedFlag`. -/
def syncMatrix : MatrixCall σ Bool := do
  let rc ← rcOf (activeMatrixVerify link map ports)
  if rc ≠ .ok then do
    programGlobalMatrix link
    pure true
  else pure false

end Verify

/-! ## What the matrix must be -/

section Required

variable (map : PortMap) (ports : Byte) (c : Controller)

/-- The channels that a logical port must be mapped to; 255 stands for none. -/
def required (i : Nat) : BitVec 32 × BitVec 32 :=
  if i < ports.toNat ∧ (map i).capPoe then ((map i).physPortA, (map i).physPortB) else (255#32, 255#32)

/-- The channels that a logical port is mapped to. -/
def Controller.mapping (i : Nat) : Byte × Byte := ((c (.getActive i)).2.byte 2, readPortB ((c (.getActive i)).2.byte 3))

/-- Two channels, as the port map has them. -/
def widen (phys : Byte × Byte) : BitVec 32 × BitVec 32 := (phys.1.setWidth 32, phys.2.setWidth 32)

def Wrong (i : Nat) : Prop := widen (c.mapping i) ≠ required map ports i

instance (i : Nat) : Decidable (Wrong map ports c i) := inferInstanceAs (Decidable (_ ≠ _))

/-- The command that writes the mapping of a port. -/
def correction (i : Nat) : MatrixCmd :=
  .setTemporary i ((required map ports i).1.setWidth 8) ((required map ports i).2.setWidth 8)

/-- The verification goes on behind a port: no command for it has failed, and it is not a port behind those of the
product that is unused already. -/
def Passes (i : Nat) : Prop :=
  (c (.getActive i)).1 = .ok ∧ (Wrong map ports c i → (c (correction map ports i)).1 = .ok) ∧
    (ports.toNat ≤ i → Wrong map ports c i)

/-- The loop that starts at `i` reaches port `j`. -/
def Reached (i j : Nat) : Prop := ∀ k, i ≤ k → k < j → Passes map ports c k

/-- The transaction with a controller. -/
def Controller.exchange (cmd : MatrixCmd) : MatrixExchange := ⟨cmd, (c cmd).1, (c cmd).2⟩

/-- The transactions for one port. -/
def portLog (i : Nat) : List MatrixExchange :=
  c.exchange (.getActive i) ::
    if (c (.getActive i)).1 = .ok ∧ Wrong map ports c i then [c.exchange (correction map ports i)] else []

end Required

section Steps

variable {map : PortMap} {ports : Byte} {c : Controller} {i n : Nat} {save : Bool} {l : List MatrixExchange}

theorem widen_eq_unused (a b : Byte) : widen (a, b) = (255#32, 255#32) ↔ a = 255#8 ∧ b = 255#8 := by
  have h : ∀ x : Byte, x.setWidth 32 = 255#32 ↔ x = 255#8 := by
    intro x
    rw [← BitVec.toNat_inj, ← BitVec.toNat_inj, BitVec.toNat_setWidth_of_le (by decide)]
    rfl
  rw [widen, Prod.mk.injEq, h, h]

theorem required_of_not (h : ¬(i < ports.toNat ∧ (map i).capPoe)) : required map ports i = (255#32, 255#32) := if_neg h

theorem update_unused (phys : Byte × Byte) : (if phys.1 ≠ 255#8 ∨ phys.2 ≠ 255#8 then some (255#8, 255#8) else none) =
    if widen phys ≠ (255#32, 255#32) then some ((255#32).setWidth 8, (255#32).setWidth 8) else none := by
  by_cases h : phys.1 = 255#8 ∧ phys.2 = 255#8
  · rw [if_neg (by simp [h]), if_neg (not_not.mpr ((widen_eq_unused phys.1 phys.2).mpr h))]
  · rw [if_pos (by rwa [← not_and_or]), if_pos (mt (widen_eq_unused phys.1 phys.2).mp h)]
    rfl

/-- What the loop body decides is to write the required mapping of a wrong port. -/
theorem updateNeeded_eq (i : Nat) (phys : Byte × Byte) :
    updateNeeded map ports i phys.1 phys.2 = if widen phys ≠ required map ports i then
      some ((required map ports i).1.setWidth 8, (required map ports i).2.setWidth 8) else none := by
  by_cases hpoe : i < ports.toNat ∧ (map i).capPoe
  · simp only [updateNeeded, required, hpoe, if_true, and_self, widen, ne_eq, Prod.mk.injEq, not_and_or]
  · rw [required_of_not hpoe, ← update_unused]
    by_cases hi : i < ports.toNat
    · rw [updateNeeded, if_pos hi, if_neg fun hcap => hpoe ⟨hi, hcap⟩]
    · rw [updateNeeded, if_neg hi]

theorem stopsAt_iff (i : Nat) (phys : Byte × Byte) :
    stopsAt ports i phys.1 phys.2 ↔ ports.toNat ≤ i ∧ widen phys = required map ports i := by
  by_cases hi : i < ports.toNat
  · simp [stopsAt, hi]
  · rw [required_of_not fun hpoe => hi hpoe.1, show widen phys = (255#32, 255#32) ↔ _ from widen_eq_unused phys.1 phys.2]
    simp [stopsAt, hi, Nat.le_of_not_lt hi]

/-! ### One port -/

theorem transact_link_ok {cmd : MatrixCmd} (h : (c cmd).1 = .ok) :
    transactMatrix c.link cmd ((), l) = .ok (c cmd).2 ((), l ++ [c.exchange cmd]) := by
  simp [transactMatrix, Controller.link, Controller.exchange, h]

theorem transact_link_error {cmd : MatrixCmd} (h : (c cmd).1 ≠ .ok) :
    transactMatrix c.link cmd ((), l) = .error (some (c cmd).1) ((), l ++ [c.exchange cmd]) := by
  simp [transactMatrix, Controller.link, Controller.exchange, h]

theorem readPort_ok (h : (c (.getActive i)).1 = .ok) :
    readPort c.link i ((), l) = .ok (c.mapping i) ((), l ++ [c.exchange (.getActive i)]) := by
  rw [readPort, getActiveMatrix, bind_assoc, bind_of_ok (transact_link_ok h)]
  rfl

theorem readPort_error (h : (c (.getActive i)).1 ≠ .ok) : readPort c.link i ((), l) =
    .error (some (c (.getActive i)).1) ((), l ++ [c.exchange (.getActive i)]) := by
  rw [readPort, getActiveMatrix, bind_assoc, bind_of_error (transact_link_error h)]

theorem correctPort_right (h : ¬Wrong map ports c i) : correctPort c.link map ports i (c.mapping i) save = pure save := by
  rw [correctPort, updateNeeded_eq, if_neg (show ¬widen (c.mapping i) ≠ _ from h)]

theorem correctPort_wrong (h : Wrong map ports c i) : correctPort c.link map ports i (c.mapping i) save =
    transactMatrix c.link (correction map ports i) >>= fun _ => pure true := by
  rw [correctPort, updateNeeded_eq, if_pos (show widen (c.mapping i) ≠ _ from h)]
  simp [setTemporaryMatrix, correction]

/-- The loop goes on behind a port that passes. -/
theorem verifyFrom_of_passes (h : Passes map ports c i) : verifyFrom c.link map ports (n + 1) i save ((), l) =
    verifyFrom c.link map ports n (i + 1) (save || decide (Wrong map ports c i)) ((), l ++ portLog map ports c i) := by
  obtain ⟨hget, hset, hbehind⟩ := h
  have hgo : ¬stopsAt ports i (c.mapping i).1 (c.mapping i).2 := by
    intro hstop
    obtain ⟨hle, heq⟩ := (stopsAt_iff i (c.mapping i)).mp hstop
    exact hbehind hle heq
  rw [verifyFrom, bind_of_ok (readPort_ok hget)]
  by_cases hwrong : Wrong map ports c i
  · rw [correctPort_wrong hwrong, bind_assoc, bind_of_ok (transact_link_ok (hset hwrong))]
    simp [hgo, hwrong, portLog, hget]
  · rw [correctPort_right hwrong]
    simp [hgo, hwrong, portLog]

/-- The loop ends at a port that does not pass. -/
theorem verifyFrom_of_not_passes (h : ¬Passes map ports c i) :
    (final (verifyFrom c.link map ports (n + 1) i save) ((), l)).2 = l ++ portLog map ports c i ∧
      (∀ t, verifyFrom c.link map ports (n + 1) i save ((), l) = .ok false t → save = false ∧ ¬Wrong map ports c i) ∧
      ∀ e t, verifyFrom c.link map ports (n + 1) i save ((), l) = .error e t → ∃ rc ≠ .ok, e = some rc := by
  by_cases hget : (c (.getActive i)).1 = .ok
  swap
  · rw [final, verifyFrom, bind_of_error (readPort_error hget)]
    simp [portLog, hget]
  rw [final, verifyFrom, bind_of_ok (readPort_ok hget)]
  by_cases hwrong : Wrong map ports c i
  · have hset : (c (correction map ports i)).1 ≠ .ok := fun hset => h ⟨hget, fun _ => hset, fun _ => hwrong⟩
    rw [correctPort_wrong hwrong, bind_assoc, bind_of_error (transact_link_error hset)]
    simp [portLog, hget, hwrong, hset]
  · have hstop : stopsAt ports i (c.mapping i).1 (c.mapping i).2 := by
      refine (stopsAt_iff i (c.mapping i)).mpr ⟨?_, not_not.mp hwrong⟩
      by_contra hlt
      exact h ⟨hget, fun hw => absurd hw hwrong, fun hle => absurd hle hlt⟩
    rw [correctPort_right hwrong, pure_bind, if_pos hstop]
    simp [pure, EStateM.pure, portLog, hwrong]

theorem Reached.self : Reached map ports c i i := fun _ hle hlt => absurd hlt (Nat.not_lt.mpr hle)

theorem reached_iff {j : Nat} (hj : i < j) :
    Reached map ports c i j ↔ Passes map ports c i ∧ Reached map ports c (i + 1) j := by
  refine ⟨fun h => ⟨h i (Nat.le_refl i) hj, fun k hle => h k (by omega)⟩, ?_⟩
  rintro ⟨hi, h⟩ k hle hlt
  rcases Nat.eq_or_lt_of_le hle with rfl | hik
  · exact hi
  · exact h k hik hlt

/-- What the loop has read and written when it comes to its end: the transactions of all ports that it has reached. And
when it has nothing to save, none of these is wrong. -/
theorem runs_verifyFrom (n i : Nat) (save : Bool) (l : List MatrixExchange) :
    ∃ new, (final (verifyFrom c.link map ports n i save) ((), l)).2 = l ++ new ∧
      (∀ e, e ∈ new ↔ ∃ j, i ≤ j ∧ j < i + n ∧ Reached map ports c i j ∧ e ∈ portLog map ports c j) ∧
      (∀ t, verifyFrom c.link map ports n i save ((), l) = .ok false t →
        save = false ∧ ∀ j, i ≤ j → j < i + n → Reached map ports c i j → ¬Wrong map ports c j) ∧
      ∀ e t, verifyFrom c.link map ports n i save ((), l) = .error e t → ∃ rc ≠ .ok, e = some rc := by
  induction n generalizing i save l with
  | zero =>
    refine ⟨[], by simp [verifyFrom, final_pure], ?_, ?_, fun e t ht => by cases ht⟩
    · intro e
      simp only [List.not_mem_nil, false_iff]
      rintro ⟨j, hle, hlt, -⟩
      omega
    · intro t ht
      cases ht
      exact ⟨rfl, fun j hle hlt => absurd hlt (by omega)⟩
  | succ n ih =>
    by_cases hpass : Passes map ports c i
    · obtain ⟨new, hlog, hmem, hok, hends⟩ := ih (i + 1) (save || decide (Wrong map ports c i)) (l ++ portLog map ports c i)
      refine ⟨portLog map ports c i ++ new, ?_, ?_, ?_, by rwa [verifyFrom_of_passes hpass]⟩
      · rw [final, verifyFrom_of_passes hpass]
        rw [List.append_assoc] at hlog
        exact hlog
      · intro e
        rw [List.mem_append, hmem]
        constructor
        · rintro (he | ⟨j, hle, hlt, hreach, he⟩)
          · exact ⟨i, Nat.le_refl i, by omega, .self, he⟩
          · exact ⟨j, by omega, by omega, (reached_iff (by omega)).mpr ⟨hpass, hreach⟩, he⟩
        · rintro ⟨j, hle, hlt, hreach, he⟩
          rcases Nat.eq_or_lt_of_le hle with rfl | hij
          · exact Or.inl he
          · exact Or.inr ⟨j, hij, by omega, ((reached_iff hij).mp hreach).2, he⟩
      · intro t ht
        rw [verifyFrom_of_passes hpass] at ht
        obtain ⟨hsave, hright⟩ := hok t ht
        simp only [Bool.or_eq_false_iff, decide_eq_false_iff_not] at hsave
        refine ⟨hsave.1, fun j hle hlt hreach => ?_⟩
        rcases Nat.eq_or_lt_of_le hle with rfl | hij
        · exact hsave.2
        · exact hright j hij (by omega) ((reached_iff hij).mp hreach).2
    · obtain ⟨hlog, hok, hends⟩ := @verifyFrom_of_not_passes map ports c i n save l hpass
      have hfirst : ∀ j, i ≤ j → Reached map ports c i j → j = i := by
        intro j hle hreach
        rcases Nat.eq_or_lt_of_le hle with rfl | hij
        · rfl
        · exact absurd ((reached_iff hij).mp hreach).1 hpass
      refine ⟨portLog map ports c i, hlog, ?_, ?_, hends⟩
      · intro e
        constructor
        · intro he
          exact ⟨i, Nat.le_refl i, by omega, .self, he⟩
        · rintro ⟨j, hle, -, hreach, he⟩
          rwa [hfirst j hle hreach] at he
      · intro t ht
        obtain ⟨hsave, hright⟩ := hok t ht
        refine ⟨hsave, fun j hle _ hreach => ?_⟩
        rwa [hfirst j hle hreach]

end Steps

/-! ## The verification and the commit -/

section Sync

variable {map : PortMap} {ports : Byte} {c : Controller} {i : Nat}

theorem mem_portLog {e : MatrixExchange} {j : Nat} (h : e ∈ portLog map ports c j) :
    e.cmd = .getActive j ∨ (c (.getActive j)).1 = .ok ∧ Wrong map ports c j ∧ e.cmd = correction map ports j := by
  rw [portLog, List.mem_cons] at h
  rcases h with rfl | h
  · exact Or.inl rfl
  · by_cases hwrong : (c (.getActive j)).1 = .ok ∧ Wrong map ports c j
    · rw [if_pos hwrong, List.mem_singleton] at h
      exact Or.inr ⟨hwrong.1, hwrong.2, by rw [h]; rfl⟩
    · rw [if_neg hwrong] at h
      cases h

/-- A port is corrected exactly when it is reached, read and found wrong. -/
theorem corrects_iff {a b : Byte} {j : Nat} : (∃ e ∈ portLog map ports c j, e.cmd = .setTemporary i a b) ↔
    j = i ∧ (c (.getActive i)).1 = .ok ∧ Wrong map ports c i ∧ correction map ports i = .setTemporary i a b := by
  constructor
  · rintro ⟨e, he, hcmd⟩
    rcases mem_portLog he with hget | ⟨hget, hwrong, hset⟩
    · cases hget.symm.trans hcmd
    · have heq := hset.symm.trans hcmd
      have hji : j = i := (MatrixCmd.setTemporary.inj heq).1
      subst hji
      exact ⟨rfl, hget, hwrong, heq⟩
  · rintro ⟨rfl, hget, hwrong, heq⟩
    refine ⟨c.exchange (correction map ports j), ?_, heq⟩
    rw [portLog, if_pos ⟨hget, hwrong⟩]
    simp

variable (map ports c)

/-- The transactions of the verification. -/
def verifyLog : List MatrixExchange := (final (activeMatrixVerify c.link map ports) ((), [])).2

/-- The transactions of the verification and of what the callers make of it. -/
def syncLog : List MatrixExchange := (final (syncMatrix c.link map ports) ((), [])).2

/-- `pd69200_active_matrix_verify` returns OK. -/
def Verified : Prop := errorOf (activeMatrixVerify c.link map ports) ((), []) = none

instance : Decidable (Verified map ports c) := inferInstanceAs (Decidable (_ = none))

/-- Before the matrix is committed, a port has been set to what it must be. -/
def SetBeforeCommit (i : Nat) : Prop :=
  ∃ e ∈ (syncLog map ports c).takeWhile (fun e => e.cmd ≠ .programGlobal), ∃ a b, e.cmd = .setTemporary i a b ∧
    widen (a, b) = required map ports i

/-- A matrix that is verified as right is right, and otherwise all that is wrong is set before the commit. -/
def MatrixRight : Prop :=
  (Verified map ports c → ∀ i < poeMaxLogicalPorts, ¬Wrong map ports c i) ∧
    (¬Verified map ports c → ∀ i < poeMaxLogicalPorts, Wrong map ports c i → SetBeforeCommit map ports c i)

/-- The required channels of a port fit into the command. -/
def Fits (i : Nat) : Prop :=
  widen ((required map ports i).1.setWidth 8, (required map ports i).2.setWidth 8) = required map ports i

/-- Every wrong port can be read and its channels fit into the command, and all ports before it pass. -/
def Correctable : Prop :=
  ∀ i < poeMaxLogicalPorts, Wrong map ports c i →
    (c (.getActive i)).1 = .ok ∧ Fits map ports i ∧ Reached map ports c 0 i

variable {map ports c}

theorem verifyLog_eq :
    verifyLog map ports c = (final (verifyFrom c.link map ports poeMaxLogicalPorts 0 false) ((), [])).2 := by
  rw [verifyLog, final, final, activeMatrixVerify]
  cases h : verifyFrom c.link map ports poeMaxLogicalPorts 0 false ((), []) with
  | ok save t =>
    rw [bind_of_ok h]
    cases save <;> rfl
  | error e t => rw [bind_of_error h]

theorem mem_verifyLog {e : MatrixExchange} : e ∈ verifyLog map ports c ↔
    ∃ j < poeMaxLogicalPorts, Reached map ports c 0 j ∧ e ∈ portLog map ports c j := by
  obtain ⟨new, hlog, hmem, -, -⟩ := @runs_verifyFrom map ports c poeMaxLogicalPorts 0 false []
  rw [verifyLog_eq, hlog, List.nil_append, hmem]
  simp

theorem not_wrong_of_verified (h : Verified map ports c) {j : Nat} (hj : j < poeMaxLogicalPorts)
    (hreach : Reached map ports c 0 j) : ¬Wrong map ports c j := by
  obtain ⟨new, -, -, hok, -⟩ := @runs_verifyFrom map ports c poeMaxLogicalPorts 0 false []
  rw [Verified, errorOf, activeMatrixVerify] at h
  cases hrun : verifyFrom c.link map ports poeMaxLogicalPorts 0 false ((), []) with
  | ok save t =>
    rw [bind_of_ok hrun] at h
    cases save with
    | false => exact (hok t hrun).2 j (Nat.zero_le j) (by omega) hreach
    | true => cases h
  | error e t =>
    rw [bind_of_error hrun] at h
    cases h

theorem commit_log (t : Unit × List MatrixExchange) :
    (final (do
      programGlobalMatrix c.link
      pure true) t).2 = t.2 ++ [c.exchange .programGlobal] := by
  by_cases h : (c .programGlobal).1 = .ok
  · rw [final, programGlobalMatrix, bind_assoc, bind_of_ok (transact_link_ok h)]
    rfl
  · rw [final, programGlobalMatrix, bind_assoc, bind_of_error (transact_link_error h)]

/-- What the log holds before the commit is what the verification has done. -/
theorem takeWhile_syncLog (h : ¬Verified map ports c) :
    (syncLog map ports c).takeWhile (fun e => e.cmd ≠ .programGlobal) = verifyLog map ports c := by
  have hsync : syncLog map ports c = verifyLog map ports c ++ [c.exchange .programGlobal] := by
    obtain ⟨new, -, -, -, hends⟩ := @runs_verifyFrom map ports c poeMaxLogicalPorts 0 false []
    rw [Verified, errorOf, activeMatrixVerify] at h
    rw [syncLog, verifyLog, syncMatrix]
    obtain ⟨rc, t, hrc, hrun, hlog⟩ : ∃ rc t, rc ≠ .ok ∧ rcOf (activeMatrixVerify c.link map ports) ((), []) = .ok rc t ∧
        (final (activeMatrixVerify c.link map ports) ((), [])).2 = t.2 := by
      rw [final, rcOf, activeMatrixVerify]
      cases hrun : verifyFrom c.link map ports poeMaxLogicalPorts 0 false ((), []) with
      | ok save t =>
        rw [bind_of_ok hrun] at h ⊢
        cases save with
        | false => exact absurd rfl h
        | true => exact ⟨.error, t, by decide, rfl, rfl⟩
      | error e t =>
        rw [bind_of_error hrun]
        obtain ⟨rc, hrc, rfl⟩ := hends e t hrun
        exact ⟨rc, t, hrc, rfl, rfl⟩
    rw [hlog, final, bind_of_ok hrun, if_pos hrc]
    exact commit_log t
  have hnone : ∀ e ∈ verifyLog map ports c, decide (e.cmd ≠ .programGlobal) = true := by
    intro e he
    obtain ⟨j, -, -, hlog⟩ := mem_verifyLog.mp he
    rcases mem_portLog hlog with hcmd | ⟨-, -, hcmd⟩ <;> simp [hcmd, correction]
  rw [hsync, List.takeWhile_append_of_pos hnone]
  simp [Controller.exchange]

theorem setBeforeCommit_iff (h : ¬Verified map ports c) (hi : i < poeMaxLogicalPorts) (hwrong : Wrong map ports c i) :
    SetBeforeCommit map ports c i ↔ (c (.getActive i)).1 = .ok ∧ Fits map ports i ∧ Reached map ports c 0 i := by
  rw [SetBeforeCommit, takeWhile_syncLog h]
  constructor
  · rintro ⟨e, he, a, b, hcmd, hreq⟩
    obtain ⟨j, -, hreach, hlog⟩ := mem_verifyLog.mp he
    obtain ⟨rfl, hget, -, heq⟩ := corrects_iff.mp ⟨e, hlog, hcmd⟩
    obtain ⟨-, ha, hb⟩ := MatrixCmd.setTemporary.inj heq
    refine ⟨hget, ?_, hreach⟩
    rw [Fits, ha, hb]
    exact hreq
  · rintro ⟨hget, hfits, hreach⟩
    obtain ⟨e, hlog, hcmd⟩ := (corrects_iff (i := i)).mpr ⟨rfl, hget, hwrong, rfl⟩
    exact ⟨e, mem_verifyLog.mpr ⟨i, hi, hreach, hlog⟩, _, _, hcmd, hfits⟩

/-- For every port map and every controller: the verification does what it is for exactly when every wrong port can be
read and set and all ports before it pass, which no unused port behind those of the product does. -/
theorem active_matrix_verify_iff (map : PortMap) (ports : Byte) (c : Controller) :
    MatrixRight map ports c ↔ Correctable map ports c := by
  by_cases hv : Verified map ports c
  · constructor
    · intro h i hi hwrong
      exact absurd hwrong (h.1 hv i hi)
    · intro h
      refine ⟨fun _ i hi hwrong => ?_, fun hnv => absurd hv hnv⟩
      exact not_wrong_of_verified hv hi (h i hi hwrong).2.2 hwrong
  · constructor
    · intro h i hi hwrong
      exact (setBeforeCommit_iff hv hi hwrong).mp (h.2 hv i hi hwrong)
    · intro h
      exact ⟨fun hok => absurd hok hv, fun _ i hi hwrong => (setBeforeCommit_iff hv hi hwrong).mpr (h i hi hwrong)⟩

end Sync

/-! ## Over the bus -/

/-- How a call ends, and its log. -/
def outcome {σ α : Type} : EStateM.Result (Option Rc) (σ × List MatrixExchange) α →
    Except (Option Rc) α × List MatrixExchange
  | .ok a t => (.ok a, t.2)
  | .error e t => (.error e, t.2)

/-- The order in which the commands are sent. -/
def MatrixCmd.rank : MatrixCmd → Nat
  | .getActive port => 2 * port
  | .setTemporary port _ _ => 2 * port + 1
  | .programGlobal => 2 * poeMaxLogicalPorts

/-- The transaction is one with the controller. -/
def Controller.Answers (c : Controller) (e : MatrixExchange) : Prop := c e.cmd = (e.rc, e.rx)

section Mirrors

variable {σ α β : Type} {link : Link σ} {lo mid hi : Nat}

/-- The commands of a call are in order from `lo` to before `hi`, and with every controller that answers as the link has
done the call ends in the same way. -/
def Mirrors (lo hi : Nat) (x : MatrixCall σ α) (y : Controller → MatrixCall Unit α) : Prop :=
  ∀ s l, ∃ new, (final x (s, l)).2 = l ++ new ∧ (new.map (·.cmd.rank)).Pairwise (· < ·) ∧
    (∀ e ∈ new, lo ≤ e.cmd.rank ∧ e.cmd.rank < hi) ∧
    ∀ c : Controller, (∀ e ∈ new, c.Answers e) → errorOf x (s, l) ≠ some none →
      outcome (y c ((), l)) = outcome (x (s, l))

theorem Mirrors.pure (lo hi : Nat) (a : α) : Mirrors lo hi (pure a : MatrixCall σ α) fun _ => pure a :=
  fun _ l => ⟨[], by simp [final_pure], by simp, by simp, fun _ _ _ => rfl⟩

theorem Mirrors.throw (lo hi : Nat) (e : Option Rc) : Mirrors lo hi (throw e : MatrixCall σ α) fun _ => throw e :=
  fun _ l => ⟨[], by simp [final_throw], by simp, by simp, fun _ _ _ => rfl⟩

theorem Mirrors.transact {cmd : MatrixCmd} (hlo : lo ≤ cmd.rank) (hhi : cmd.rank < hi) :
    Mirrors lo hi (transactMatrix link cmd) fun c => transactMatrix c.link cmd := by
  intro s l
  rcases hlink : link cmd s with _ | ⟨⟨rc, rx⟩, t⟩
  · exact ⟨[], by simp [final, transactMatrix, hlink], by simp, by simp, by simp [errorOf, transactMatrix, hlink]⟩
  · refine ⟨[⟨cmd, rc, rx⟩], ?_, by simp, by simp [hlo, hhi], ?_⟩
    · by_cases hrc : rc = .ok <;> simp [final, transactMatrix, hlink, hrc]
    · intro c hc _
      have hcmd : c cmd = (rc, rx) := hc _ (List.mem_singleton_self _)
      by_cases hrc : rc = .ok <;> simp [outcome, transactMatrix, Controller.link, hcmd, hlink, hrc]

theorem Mirrors.bind {x : MatrixCall σ α} {y : Controller → MatrixCall Unit α} {f : α → MatrixCall σ β}
    {g : Controller → α → MatrixCall Unit β} (hx : Mirrors lo mid x y) (hf : ∀ a, Mirrors mid hi (f a) fun c => g c a)
    (hlo : lo ≤ mid) (hhi : mid ≤ hi) : Mirrors lo hi (x >>= f) fun c => y c >>= g c := by
  intro s l
  obtain ⟨new, hlog, hsorted, hbounds, hsame⟩ := hx s l
  cases hxs : x (s, l) with
  | error e t =>
    have hlogx : t.2 = l ++ new := by simpa [final, hxs] using hlog
    refine ⟨new, by rw [final, bind_of_error hxs]; exact hlogx, hsorted, fun e he => ?_, ?_⟩
    · obtain ⟨h₁, h₂⟩ := hbounds e he
      exact ⟨h₁, by omega⟩
    · intro c hc hend
      rw [errorOf, bind_of_error hxs] at hend
      have hy := hsame c hc (by rw [errorOf, hxs]; exact hend)
      rw [hxs] at hy
      rw [bind_of_error hxs]
      cases hys : y c ((), l) with
      | ok a u => rw [hys] at hy; cases hy
      | error e' u =>
        rw [hys] at hy
        change outcome ((y c >>= g c) ((), l)) = _
        rw [bind_of_error hys]
        simpa [outcome] using hy
  | ok a t =>
    have hlogx : t.2 = l ++ new := by simpa [final, hxs] using hlog
    obtain ⟨new', hlog', hsorted', hbounds', hsame'⟩ := hf a t.1 (l ++ new)
    rw [← hlogx] at hlog' hsame'
    refine ⟨new ++ new', ?_, ?_, ?_, ?_⟩
    · rw [final, bind_of_ok hxs, ← List.append_assoc, ← hlogx]
      exact hlog'
    · rw [List.map_append, List.pairwise_append]
      refine ⟨hsorted, hsorted', ?_⟩
      intro r hr r' hr'
      obtain ⟨e, he, rfl⟩ := List.mem_map.mp hr
      obtain ⟨e', he', rfl⟩ := List.mem_map.mp hr'
      have h := (hbounds e he).2
      have h' := (hbounds' e' he').1
      omega
    · intro e he
      rcases List.mem_append.mp he with he | he
      · obtain ⟨h₁, h₂⟩ := hbounds e he
        exact ⟨h₁, by omega⟩
      · obtain ⟨h₁, h₂⟩ := hbounds' e he
        exact ⟨by omega, h₂⟩
    · intro c hc hend
      rw [errorOf, bind_of_ok hxs] at hend
      have hy := hsame c (fun e he => hc e (List.mem_append_left _ he)) (by simp [errorOf, hxs])
      rw [hxs] at hy
      rw [bind_of_ok hxs]
      cases hys : y c ((), l) with
      | error e' u => rw [hys] at hy; cases hy
      | ok b u =>
        rw [hys] at hy
        obtain ⟨rfl, hu⟩ : b = a ∧ u.2 = t.2 := by simpa [outcome] using hy
        change outcome ((y c >>= g c) ((), l)) = _
        rw [bind_of_ok hys, ← hsame' c (fun e he => hc e (List.mem_append_right _ he)) hend, ← hu]

theorem Mirrors.ite {b : Prop} [Decidable b] {x x' : MatrixCall σ α} {y y' : Controller → MatrixCall Unit α}
    (h : Mirrors lo hi x y) (h' : Mirrors lo hi x' y') :
    Mirrors lo hi (if b then x else x') fun c => if b then y c else y' c := by
  split
  · exact h
  · exact h'

theorem Mirrors.rcOf {x : MatrixCall σ Unit} {y : Controller → MatrixCall Unit Unit} (h : Mirrors lo hi x y) :
    Mirrors lo hi (rcOf x) fun c => rcOf (y c) := by
  intro s l
  obtain ⟨new, hlog, hsorted, hbounds, hsame⟩ := h s l
  refine ⟨new, ?_, hsorted, hbounds, ?_⟩
  · rw [← hlog, final, final, Poe.rcOf]
    rcases x (s, l) with ⟨_, t⟩ | ⟨_ | rc, t⟩ <;> rfl
  · intro c hc hend
    have hy := hsame c hc
    simp only [errorOf, Poe.rcOf] at hend hy ⊢
    rcases hx : x (s, l) with ⟨_, t⟩ | ⟨_ | rc, t⟩
    · rw [hx] at hy
      rcases hys : y c ((), l) with ⟨_, u⟩ | ⟨e, u⟩
      · rw [hys] at hy
        simpa [outcome] using hy (by simp)
      · rw [hys] at hy
        cases hy (by simp)
    · simp [hx] at hend
    · rw [hx] at hy
      rcases hys : y c ((), l) with ⟨_, u⟩ | ⟨_ | rc', u⟩
      · rw [hys] at hy
        cases hy (by simp)
      · rw [hys] at hy
        cases hy (by simp)
      · rw [hys] at hy
        simpa [outcome] using hy (by simp)

variable (map : PortMap) (ports : Byte)

theorem mirrors_readPort (i : Nat) : Mirrors (2 * i) (2 * i + 1) (readPort link i) fun c => readPort c.link i :=
  .bind (.bind (.transact (Nat.le_refl _) (Nat.lt_succ_self _)) (fun _ => .pure _ _ _) (Nat.le_succ _) (Nat.le_refl _))
    (fun _ => .pure _ _ _) (Nat.le_succ _) (Nat.le_refl _)

theorem mirrors_correctPort (i : Nat) (phys : Byte × Byte) (save : Bool) :
    Mirrors (2 * i + 1) (2 * (i + 1)) (correctPort link map ports i phys save) fun c =>
      correctPort c.link map ports i phys save := by
  unfold correctPort
  split
  · exact .bind (.bind (.transact (Nat.le_refl _) (Nat.lt_succ_self _)) (fun _ => .pure _ _ _)
      (by rw [MatrixCmd.rank]; omega) (Nat.le_refl _)) (fun _ => .pure _ _ _) (by rw [MatrixCmd.rank]; omega) (Nat.le_refl _)
  · exact .pure _ _ _

theorem mirrors_verifyFrom (n i : Nat) (save : Bool) : Mirrors (2 * i) (2 * (i + n)) (verifyFrom link map ports n i save)
    fun c => verifyFrom c.link map ports n i save := by
  induction n generalizing i save with
  | zero => exact .pure _ _ _
  | succ n ih =>
    have hrest : ∀ phys : Byte × Byte, ∀ save, Mirrors (2 * (i + 1)) (2 * (i + (n + 1)))
        (if stopsAt ports i phys.1 phys.2 then Pure.pure save else verifyFrom link map ports n (i + 1) save) fun c =>
        if stopsAt ports i phys.1 phys.2 then Pure.pure save else verifyFrom c.link map ports n (i + 1) save := by
      intro phys save
      have h := ih (i + 1) save
      rw [Nat.add_right_comm i 1 n] at h
      exact .ite (.pure _ _ _) h
    exact .bind (mirrors_readPort i) (fun phys => .bind (mirrors_correctPort map ports i phys save) (hrest phys)
      (by omega) (by omega)) (by omega) (by omega)

theorem mirrors_activeMatrixVerify : Mirrors 0 (2 * poeMaxLogicalPorts) (activeMatrixVerify link map ports) fun c =>
    activeMatrixVerify c.link map ports := by
  have h := @mirrors_verifyFrom σ link map ports poeMaxLogicalPorts 0 false
  rw [Nat.zero_add] at h
  exact .bind h (fun _ => .ite (.throw _ _ _) (.pure _ _ _)) (Nat.zero_le _) (Nat.le_refl _)

theorem mirrors_syncMatrix : Mirrors 0 (2 * poeMaxLogicalPorts + 1) (syncMatrix link map ports) fun c =>
    syncMatrix c.link map ports := by
  refine .bind (mirrors_activeMatrixVerify map ports).rcOf (fun rc => ?_) (Nat.zero_le _) (Nat.le_succ _)
  exact .ite (.bind (.bind (.transact (Nat.le_refl _) (Nat.lt_succ_self _)) (fun _ => .pure _ _ _) (Nat.le_succ _)
    (Nat.le_refl _)) (fun _ => .pure _ _ _) (Nat.le_succ _) (Nat.le_refl _)) (.pure _ _ _)

end Mirrors

theorem exists_answers {log : List MatrixExchange} (h : (log.map (·.cmd.rank)).Pairwise (· < ·)) :
    ∃ c : Controller, ∀ e ∈ log, c.Answers e := by
  induction log with
  | nil => exact ⟨fun _ => (.ok, Vector.replicate 15 0#8), by simp⟩
  | cons e log ih =>
    rw [List.map_cons, List.pairwise_cons] at h
    obtain ⟨c, hc⟩ := ih h.2
    refine ⟨Function.update c e.cmd (e.rc, e.rx), ?_⟩
    intro e' he'
    rcases List.mem_cons.mp he' with rfl | he'
    · exact Function.update_self _ _ _
    · have hlt := h.1 _ (List.mem_map_of_mem he')
      have hne : e'.cmd ≠ e.cmd := fun heq => by rw [heq] at hlt; exact Nat.lt_irrefl _ hlt
      rw [Controller.Answers, Function.update_of_ne hne]
      exact hc e' he'

/-- What a run over the bus does when it comes to its end, the run with a controller that answers as the bus has done does
as well; and there is such a controller. -/
theorem sync_of_answers {H : Type} (bus : I2c H) (fuel : Nat) (map : PortMap) (ports : Byte) (s : Inst H)
    (hend : errorOf (syncMatrix (busLink bus fuel) map ports) (s, []) ≠ some none) :
    (∃ c : Controller, ∀ e ∈ (final (syncMatrix (busLink bus fuel) map ports) (s, [])).2, c.Answers e) ∧
    ∀ c : Controller, (∀ e ∈ (final (syncMatrix (busLink bus fuel) map ports) (s, [])).2, c.Answers e) →
      outcome (syncMatrix c.link map ports ((), [])) = outcome (syncMatrix (busLink bus fuel) map ports (s, [])) := by
  obtain ⟨new, hlog, hsorted, -, hsame⟩ := mirrors_syncMatrix map ports s []
  rw [List.nil_append] at hlog
  rw [hlog]
  exact ⟨exists_answers hsorted, fun c hc => hsame c hc hend⟩

/-- The synchronisation over a bus on which nothing answers. -/
abbrev silentSync : MatrixCall (Inst (List Byte)) Bool := syncMatrix (busLink wire 40) (fun _ => ⟨false, 0#32, 0#32⟩) 8#8

theorem sync_of_answers_silent :
    (∃ c : Controller, ∀ e ∈ (final silentSync ({ conf := {}, hw := [] }, [])).2, c.Answers e) ∧
    ∀ c : Controller, (∀ e ∈ (final silentSync ({ conf := {}, hw := [] }, [])).2, c.Answers e) →
      outcome (syncMatrix c.link (fun _ => ⟨false, 0#32, 0#32⟩) 8#8 ((), [])) =
        outcome (silentSync ({ conf := {}, hw := [] }, [])) :=
  sync_of_answers wire 40 _ 8#8 { conf := {}, hw := [] } (by decide +kernel)

/-! ### A port behind an unused one -/

/-- A controller that answers every command and maps a single port. -/
def benchController (port : Nat) (physA physB : Byte) : Controller := fun cmd =>
  (.ok, message [telemetryKey, 0x00#8,
    if cmd = .getActive port then physA else 255#8, if cmd = .getActive port then physB else 255#8])

/-- The first unused port behind those of the product ends the verification, and a port behind it stays mapped. -/
theorem not_active_matrix_verify : ¬∀ (map : PortMap) (ports : Byte) (c : Controller), MatrixRight map ports c := by
  intro h
  have hright := (h (fun _ => ⟨false, 0#32, 0#32⟩) 8#8 (benchController 9 3#8 4#8)).1 (by decide +kernel) 9 (by decide)
  revert hright
  decide

end Lan80xx.Poe
