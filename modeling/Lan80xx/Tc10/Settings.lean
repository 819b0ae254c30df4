import Lan80xx.Tc10.Types
import Lan80xx.Lib.RegWords

/-!
# TC10: the seven settings and their register fields

The wake-up registers of a chip share their layout up to the registers' addresses, the place of the sleep bit and the
level that the polarity bits stand for. `Layout.encode` is the meaning of the fields: which bits a valid request asks for.

- `Coherent`: for every setting, the fields hold what the last accepted request asked for, and the driver reports it;
- `Coherent.accept`, `Coherent.reject`: what a call has to do to keep that.
-/

namespace Lan80xx.Tc10

open RegBus

/-! ## Settings and requests -/

inductive Setting
  | sleep
  | wakeup
  | wakeupFwd
  | wakeInPol
  | wakeOutPol
  | wakeOutMode
  | inhMode
  deriving DecidableEq, Repr

/-- The set calls with their arguments. -/
inductive Request
  | sleepSupport (enable : Bool)
  | wakeupSupport (mode : WakeupMode)
  | wakeupFwdSupport (mode : WakeupFwdMode)
  | wakePinPolarity (pin : Pin) (polarity : GpioMode)
  | pinMode (pin : Pin) (mode : GpioMode)
  deriving DecidableEq, Repr

/-- The setting that a call is about, unless its pin has no such setting. -/
def Request.setting : Request → Option Setting
  | .sleepSupport _ => some .sleep
  | .wakeupSupport _ => some .wakeup
  | .wakeupFwdSupport _ => some .wakeupFwd
  | .wakePinPolarity .wakeIn _ => some .wakeInPol
  | .wakePinPolarity .wakeOut _ => some .wakeOutPol
  | .pinMode .wakeOut _ => some .wakeOutMode
  | .pinMode .inh _ => some .inhMode
  | _ => none

namespace Data

/-- `tc10_get_sleep_support` -/
def getSleepSupport (d : Data) : Bool := d.sleepEnable

/-- `tc10_get_wakeup_support` -/
def getWakeupSupport (d : Data) : WakeupMode := d.wakeupMode

/-- `tc10_get_wakeup_fwd_support` -/
def getWakeupFwdSupport (d : Data) : WakeupFwdMode := d.wakeupFwdMode

/-- `tc10_get_wake_pin_polarity`; `none` is `MEPA_RC_ERR_PARM`. -/
def getWakePinPolarity (d : Data) : Pin → Option GpioMode
  | .wakeIn => some d.wakeInPol
  | .wakeOut => some d.wakeOutPol
  | _ => none

/-- `tc10_get_pin_mode` -/
def getPinMode (d : Data) : Pin → Option GpioMode
  | .inh => some d.inhMode
  | .wakeOut => some d.wakeOutMode
  | _ => none

/-- The get call that belongs to the request returns its argument. -/
def Reports (d : Data) : Request → Prop
  | .sleepSupport enable => d.getSleepSupport = enable
  | .wakeupSupport mode => d.getWakeupSupport = mode
  | .wakeupFwdSupport mode => d.getWakeupFwdSupport = mode
  | .wakePinPolarity pin polarity => d.getWakePinPolarity pin = some polarity
  | .pinMode pin mode => d.getPinMode pin = some mode

/-- The data after the request. -/
def store (d : Data) : Request → Data
  | .sleepSupport enable => { d with sleepEnable := enable }
  | .wakeupSupport mode => { d with wakeupMode := mode }
  | .wakeupFwdSupport mode => { d with wakeupFwdMode := mode }
  | .wakePinPolarity .wakeIn polarity => { d with wakeInPol := polarity }
  | .wakePinPolarity _ polarity => { d with wakeOutPol := polarity }
  | .pinMode .inh mode => { d with inhMode := mode }
  | .pinMode _ mode => { d with wakeOutMode := mode }

/-- The request for what the get call of a setting returns. -/
def request (d : Data) : Setting → Request
  | .sleep => .sleepSupport d.getSleepSupport
  | .wakeup => .wakeupSupport d.getWakeupSupport
  | .wakeupFwd => .wakeupFwdSupport d.getWakeupFwdSupport
  | .wakeInPol => .wakePinPolarity .wakeIn d.wakeInPol
  | .wakeOutPol => .wakePinPolarity .wakeOut d.wakeOutPol
  | .wakeOutMode => .pinMode .wakeOut d.wakeOutMode
  | .inhMode => .pinMode .inh d.inhMode

@[simp] theorem request_setting (d : Data) (st : Setting) : (d.request st).setting = some st := by cases st <;> rfl

theorem reports_iff {d : Data} {req : Request} {st : Setting} (h : req.setting = some st) :
    d.Reports req ↔ req = d.request st := by
  cases req with
  | sleepSupport | wakeupSupport | wakeupFwdSupport =>
    cases h
    exact ⟨fun h => by cases h; rfl, fun h => by cases h; rfl⟩
  | wakePinPolarity pin polarity | pinMode pin mode =>
    cases pin <;> cases h <;> exact ⟨fun h => by cases h; rfl, fun h => by cases h; rfl⟩

/-- To store what is reported already changes nothing. -/
@[simp] theorem store_request (d : Data) (st : Setting) : d.store (d.request st) = d := by cases st <;> rfl

/-- The request that was stored is the reported one of its setting, and the others are the same. -/
theorem request_store (d : Data) {req : Request} {st st' : Setting} (h : req.setting = some st) :
    (d.store req).request st' = if st' = st then req else d.request st' := by
  cases req with
  | sleepSupport | wakeupSupport | wakeupFwdSupport => cases h; cases st' <;> rfl
  | wakePinPolarity pin polarity | pinMode pin mode => cases pin <;> cases h <;> cases st' <;> rfl

theorem store_reports (d : Data) {req : Request} {st : Setting} (h : req.setting = some st) : (d.store req).Reports req := by
  rw [reports_iff h, request_store d h, if_pos rfl]

/-- A request for one setting leaves what is reported of another one. -/
theorem store_keeps (d : Data) {req req' : Request} {st st' : Setting} (h : req.setting = some st)
    (h' : req'.setting = some st') (hne : st ≠ st') (hr : d.Reports req') : (d.store req).Reports req' := by
  rw [reports_iff h', request_store d h, if_neg hne.symm]
  exact (reports_iff h').mp hr

end Data

/-! ## Fields -/

/-- Whether a wake-up pulse on the line and the `WAKE_IN` pin wake the PHY up. -/
def WakeupMode.sources : WakeupMode → Option (Bool × Bool)
  | .disable => some (false, false)
  | .wupEnable => some (true, false)
  | .wakeinEnable => some (false, true)
  | .wupWakeinEnable => some (true, true)
  | .other _ => none

/-- Whether a wake-up is passed on to the line and to the `WAKE_OUT` pin. -/
def WakeupFwdMode.sinks : WakeupFwdMode → Option (Bool × Bool)
  | .disable => some (false, false)
  | .wupEnable => some (true, false)
  | .wakeoutEnable => some (false, true)
  | .wupWakeoutEnable => some (true, true)
  | .other _ => none

/-- Active low or not. -/
def GpioMode.isLow : GpioMode → Option Bool
  | .activeLow => some true
  | .activeHigh => some false
  | _ => none

/-- The mode of the `WAKE_OUT` pin in its two bits. -/
def GpioMode.drive : GpioMode → Option (BitVec 16)
  | .pushPull => some 0
  | .openSource => some 1
  | .openDrain => some 2
  | _ => none

/-- Open drain or not, of the pin that has no other modes than open source and open drain. -/
def GpioMode.isDrain : GpioMode → Option Bool
  | .openSource => some false
  | .openDrain => some true
  | _ => none

/-- Where a chip keeps the settings: its common and its port register, the sleep bit with its value while sleep is
enabled, and the value of the polarity bits for active low. -/
structure Layout (Reg : Type) where
  common : Reg
  port : Reg
  sleepReg : Reg
  sleepBit : Nat
  sleepOn : Bool
  low : Bool

/-- The mask of the `WAKE_OUT` mode. -/
def driveMask : BitVec 16 := 3#16 <<< 9

variable {Reg : Type}

namespace Layout

variable (L : Layout Reg)

/-- The bits of a setting. -/
def field : Setting → List (Reg × BitVec 16)
  | .sleep => [(L.sleepReg, 1#16 <<< L.sleepBit)]
  | .wakeup => [(L.port, 1#16 <<< 8), (L.common, 1#16 <<< 0)]
  | .wakeupFwd => [(L.port, 1#16 <<< 12), (L.common, 1#16 <<< 7)]
  | .wakeInPol => [(L.common, 1#16 <<< 12)]
  | .wakeOutPol => [(L.common, 1#16 <<< 11)]
  | .wakeOutMode => [(L.common, driveMask)]
  | .inhMode => [(L.common, 1#16 <<< 8)]

/-- The bits that a request asks for; `none` for an argument without a meaning. -/
def encode : Request → Option (List (Patch Reg 16))
  | .sleepSupport enable => some [bitPatch L.sleepReg L.sleepBit (enable == L.sleepOn)]
  | .wakeupSupport mode => mode.sources.map fun p => [bitPatch L.port 8 p.1, bitPatch L.common 0 p.2]
  | .wakeupFwdSupport mode => mode.sinks.map fun p => [bitPatch L.port 12 p.1, bitPatch L.common 7 p.2]
  | .wakePinPolarity .wakeIn polarity => polarity.isLow.map fun b => [bitPatch L.common 12 (b == L.low)]
  | .wakePinPolarity .wakeOut polarity => polarity.isLow.map fun b => [bitPatch L.common 11 (b == L.low)]
  | .pinMode .wakeOut mode => mode.drive.map fun (x : BitVec 16) => [⟨L.common, x <<< (9 : Nat), driveMask⟩]
  | .pinMode .inh mode => mode.isDrain.map fun b => [bitPatch L.common 8 b]
  | _ => none

/-- The fields hold the argument of the request. -/
def Encodes (req : Request) (m : Reg → BitVec 16) : Prop := ∃ ps, L.encode req = some ps ∧ ∀ p ∈ ps, p.In m

instance (req : Request) (m : Reg → BitVec 16) : Decidable (L.Encodes req m) :=
  match h : L.encode req with
  | none => isFalse fun ⟨_, hps, _⟩ => by simp [h] at hps
  | some ps => decidable_of_iff (∀ p ∈ ps, p.In m) ⟨fun hin => ⟨ps, h, hin⟩, fun ⟨_, hps, hin⟩ => by
      obtain rfl := Option.some.inj (h.symm.trans hps)
      exact hin⟩

/-- The fields of a setting are the same in both. -/
def KeepsField (st : Setting) (m m' : Reg → BitVec 16) : Prop := ∀ f ∈ L.field st, m' f.1 &&& f.2 = m f.1 &&& f.2

variable {L} {m m' : Reg → BitVec 16} {req req' : Request} {st : Setting}

/-- A request asks for the bits of its setting. -/
theorem encode_field {ps : List (Patch Reg 16)} (hst : req.setting = some st) (h : L.encode req = some ps) :
    ps.map (fun p => (p.reg, p.mask)) = L.field st := by
  cases req with
  | sleepSupport enable => cases hst; cases h; rfl
  | wakeupSupport mode => cases hst; cases mode <;> cases h <;> rfl
  | wakeupFwdSupport mode => cases hst; cases mode <;> cases h <;> rfl
  | wakePinPolarity pin polarity => cases pin <;> cases hst <;> cases polarity <;> cases h <;> rfl
  | pinMode pin mode => cases pin <;> cases hst <;> cases mode <;> cases h <;> rfl

/-- A request that asks for something has a setting. -/
theorem setting_of_encode {ps : List (Patch Reg 16)} (h : L.encode req = some ps) : ∃ st, req.setting = some st := by
  cases req with
  | sleepSupport | wakeupSupport | wakeupFwdSupport => exact ⟨_, rfl⟩
  | wakePinPolarity pin polarity => cases pin <;> first | exact ⟨_, rfl⟩ | cases h
  | pinMode pin mode => cases pin <;> first | exact ⟨_, rfl⟩ | cases h

theorem Encodes.of_keeps (hst : req.setting = some st) (h : L.Encodes req m) (hk : L.KeepsField st m m') :
    L.Encodes req m' := by
  obtain ⟨ps, hps, hin⟩ := h
  refine ⟨ps, hps, fun p hp => ?_⟩
  have hmem : (p.reg, p.mask) ∈ L.field st := by
    rw [← encode_field hst hps]
    exact List.mem_map_of_mem hp
  exact (hk _ hmem).trans (hin p hp)

end Layout

/-! ## Words that a call stores -/

/-- The bit that passes a word on to the battery domain, in all registers but that of the LAN8770 sleep bit. -/
def vbatWr : BitVec 16 := 1#16 <<< 15

/-- Of the word `v`, a patch, and possibly the battery bit, is put in place. -/
structure Stores (p : Patch Reg 16) (v v' : BitVec 16) : Prop where
  own : v' &&& p.mask = p.value &&& p.mask
  others : ∀ k, k &&& p.mask = 0#16 → k &&& vbatWr = 0#16 → v' &&& k = v &&& k

/-- Bits inside a mask and bits outside of it. -/
theorem and_eq_zero_of_outside {x k mask : BitVec 16} (hx : x &&& ~~~mask = 0#16) (hk : k &&& mask = 0#16) :
    x &&& k = 0#16 := by
  have hsplit : x = x &&& mask := by
    calc x = x &&& (mask ||| ~~~mask) := by rw [BitVec.or_not_self, BitVec.and_allOnes]
      _ = (x &&& mask) ||| (x &&& ~~~mask) := BitVec.and_or_distrib_left
      _ = x &&& mask := by rw [hx, BitVec.or_zero]
  rw [hsplit, BitVec.and_assoc, BitVec.and_comm mask, hk, BitVec.and_zero]

theorem stores_merge {p : Patch Reg 16} (v : BitVec 16) {x k : BitVec 16} (hmask : p.mask &&& k = p.mask)
    (hvalue : x &&& p.mask = p.value &&& p.mask) (hk : k &&& ~~~(p.mask ||| vbatWr) = 0#16) :
    Stores p v (merge v x k) := by
  refine ⟨(merge_and_within v x hmask).trans hvalue, fun k' hp hb => merge_and_apart v x (and_eq_zero_of_outside hk ?_)⟩
  rw [BitVec.and_or_distrib_left, hp, hb, BitVec.or_zero]

/-- Bits that are or'ed into a field in which they are alone. -/
theorem stores_or {p : Patch Reg 16} {v x : BitVec 16} (hown : (v ||| x) &&& p.mask = p.value &&& p.mask)
    (hx : x &&& ~~~p.mask = 0#16) : Stores p v (v ||| x) := by
  refine ⟨hown, fun k hk _ => ?_⟩
  rw [or_eq_merge]
  exact merge_and_apart v x (and_eq_zero_of_outside hx hk)

/-- A layout in which no two fields share a bit, and none has the battery bit. -/
structure Chip (Reg : Type) extends Layout Reg where
  apart : ∀ st st', st ≠ st' → ∀ f ∈ toLayout.field st, ∀ f' ∈ toLayout.field st', f.1 = f'.1 → f'.2 &&& f.2 = 0#16
  noVbat : ∀ st, ∀ f ∈ toLayout.field st, f.2 &&& vbatWr = 0#16

/-- The words after a call that stores the patches of its request: each one in a word that has the other fields right. -/
theorem Chip.settle (L : Chip Reg) {req : Request} {st : Setting} {ps : List (Patch Reg 16)} {m m' : Reg → BitVec 16}
    (hst : req.setting = some st) (henc : L.encode req = some ps)
    (hstore : ∀ p ∈ ps, ∃ v, Stores p v (m' p.reg) ∧
      ∀ st', st' ≠ st → ∀ f ∈ L.field st', f.1 = p.reg → v &&& f.2 = m f.1 &&& f.2)
    (helse : ∀ st', st' ≠ st → ∀ f ∈ L.field st', (∀ p ∈ ps, p.reg ≠ f.1) → m' f.1 &&& f.2 = m f.1 &&& f.2) :
    L.Encodes req m' ∧ ∀ st', st' ≠ st → L.KeepsField st' m m' := by
  refine ⟨⟨ps, henc, fun p hp => ?_⟩, fun st' hne f hf => ?_⟩
  · obtain ⟨v, hs, -⟩ := hstore p hp
    exact hs.own
  · by_cases hreg : ∀ p ∈ ps, p.reg ≠ f.1
    · exact helse st' hne f hf hreg
    · simp only [not_forall, not_not] at hreg
      obtain ⟨p, hp, hpf⟩ := hreg
      obtain ⟨v, hs, hv⟩ := hstore p hp
      have hmem : (p.reg, p.mask) ∈ L.field st := by
        rw [← Layout.encode_field hst henc]
        exact List.mem_map_of_mem hp
      have happart := L.apart st st' (fun he => hne he.symm) _ hmem f hf hpf
      rw [← hpf, hs.others f.2 happart (L.noVbat st' f hf), hv st' hne f hf hpf.symm, hpf]

/-! ## Coherence -/

/-- For every setting, the fields hold the argument of the last accepted request, and the get call returns it. -/
structure Coherent (L : Layout Reg) (last : Setting → Option Request) (d : Data) (m : Reg → BitVec 16) : Prop where
  named : ∀ st, ∀ req ∈ last st, req.setting = some st
  fields : ∀ st, ∀ req ∈ last st, L.Encodes req m
  cached : ∀ st, ∀ req ∈ last st, d.Reports req

section Coherent

variable {L : Layout Reg} {last : Setting → Option Request} {d : Data} {m m' : Reg → BitVec 16} {req : Request}
  {st : Setting}

theorem coherent_start (L : Layout Reg) (d : Data) (m : Reg → BitVec 16) : Coherent L (fun _ => none) d m :=
  ⟨nofun, nofun, nofun⟩

/-- A call that sets its own field and leaves the others. -/
theorem Coherent.accept (h : Coherent L last d m) (hst : req.setting = some st) (henc : L.Encodes req m')
    (hkeep : ∀ st', st' ≠ st → L.KeepsField st' m m') :
    Coherent L (Function.update last st (some req)) (d.store req) m' := by
  have hcases : ∀ st' req', req' ∈ Function.update last st (some req) st' →
      (st' = st ∧ req' = req) ∨ (st' ≠ st ∧ req' ∈ last st') := by
    intro st' req' hmem
    by_cases hs : st' = st
    · subst hs
      rw [Function.update_self] at hmem
      cases hmem
      exact Or.inl ⟨rfl, rfl⟩
    · rw [Function.update_of_ne hs] at hmem
      exact Or.inr ⟨hs, hmem⟩
  constructor
  · intro st' req' hmem
    rcases hcases st' req' hmem with ⟨rfl, rfl⟩ | ⟨_, hl⟩
    · exact hst
    · exact h.named st' req' hl
  · intro st' req' hmem
    rcases hcases st' req' hmem with ⟨rfl, rfl⟩ | ⟨hs, hl⟩
    · exact henc
    · exact (h.fields st' req' hl).of_keeps (h.named st' req' hl) (hkeep st' hs)
  · intro st' req' hmem
    rcases hcases st' req' hmem with ⟨rfl, rfl⟩ | ⟨hs, hl⟩
    · exact d.store_reports hst
    · exact d.store_keeps hst (h.named st' req' hl) (fun he => hs he.symm) (h.cached st' req' hl)

/-- A call that leaves every field. -/
theorem Coherent.reject (h : Coherent L last d m) (hkeep : ∀ st', L.KeepsField st' m m') : Coherent L last d m' :=
  ⟨h.named, fun st' req' hl => (h.fields st' req' hl).of_keeps (h.named st' req' hl) (hkeep st'), h.cached⟩

end Coherent

/-! ## Calls -/

section Calls

variable {ε S : Type}

/-- A set call about one register: it is read, the word is changed unless an argument is rejected, and written back. -/
def setOne (rd : EStateM ε S (BitVec 16)) (wr : BitVec 16 → EStateM ε S Unit) (reject : ε)
    (word : BitVec 16 → Option (BitVec 16)) (keep : EStateM ε S PUnit) : EStateM ε S PUnit := do
  let v ← rd
  match word v with
  | some v' => do
    wr v'
    keep
  | none => throw reject

/-- A set call about two registers. -/
def setTwo (rd₁ rd₂ : EStateM ε S (BitVec 16)) (wr₁ wr₂ : BitVec 16 → EStateM ε S Unit) (reject : ε)
    (words : BitVec 16 → BitVec 16 → Option (BitVec 16 × BitVec 16)) (keep : EStateM ε S PUnit) : EStateM ε S PUnit := do
  let v₁ ← rd₁
  let v₂ ← rd₂
  match words v₁ v₂ with
  | some v' => do
    wr₁ v'.1
    wr₂ v'.2
    keep
  | none => throw reject

end Calls

/-! ## Runs -/

/-- The last accepted request for each setting, after one more. -/
def record (last : Setting → Option Request) (req : Request) : Setting → Option Request :=
  match req.setting with
  | some st => Function.update last st (some req)
  | none => last

section Runs

variable {H C ε ι : Type} (drift : H → H → Prop) (call : ι → Request → EStateM ε (Dev C H) PUnit)

/-- A set call, whatever it returns, or an update by the PHY itself, with the last accepted requests. `P` restricts the
calls. -/
inductive Step (P : ι → Dev C H → Request → Prop) :
    Dev C H × (Setting → Option Request) → Dev C H × (Setting → Option Request) → Prop
  | ok {i : ι} {s s' : Dev C H} {last : Setting → Option Request} {req : Request} {u : PUnit} :
      P i s req → call i req s = .ok u s' → Step P (s, last) (s', record last req)
  | error {i : ι} {s s' : Dev C H} {last : Setting → Option Request} {req : Request} {e : ε} :
      P i s req → call i req s = .error e s' → Step P (s, last) (s', last)
  | drift {s : Dev C H} {last : Setting → Option Request} {h : H} : drift s.hw h →
      Step P (s, last) ({ s with hw := h }, last)

abbrev Run (P : ι → Dev C H → Request → Prop) :
    Dev C H × (Setting → Option Request) → Dev C H × (Setting → Option Request) → Prop :=
  Relation.ReflTransGen (Step drift call P)

variable (L : Chip Reg) (tc : C → Data) (view : H → Reg → BitVec 16)

/-- An accepted call stores its request and leaves the other settings; a rejected one leaves everything. -/
def Obeys (P : ι → Dev C H → Request → Prop) : Prop := ∀ i s req, P i s req →
  Fallible.Ends (fun t => t = s) (call i req)
    (fun _ t => tc t.conf = (tc s.conf).store req ∧ ∃ st, req.setting = some st ∧ L.Encodes req (view t.hw) ∧
      ∀ st', st' ≠ st → L.KeepsField st' (view s.hw) (view t.hw))
    fun t => tc t.conf = tc s.conf ∧ ∀ st', L.KeepsField st' (view s.hw) (view t.hw)

variable {drift call L tc view} {P : ι → Dev C H → Request → Prop}

/-- A call changes no field of another setting. -/
theorem Obeys.keeps (h : Obeys call L tc view P) {i : ι} {s : Dev C H} {req : Request} (hP : P i s req) {st' : Setting}
    (hne : req.setting ≠ some st') : L.KeepsField st' (view s.hw) (view (Fallible.final (call i req) s).hw) := by
  rcases (h i s req hP).final rfl with ⟨-, -, -, st, hst, -, hk⟩ | ⟨-, -, hk⟩
  · refine hk st' fun he => hne ?_
    rw [hst, he]
  · exact hk st'

theorem Step.coherent (h : Obeys call L tc view P) (hdrift : ∀ h h', drift h h' → view h' = view h)
    {x y : Dev C H × (Setting → Option Request)} (hstep : Step drift call P x y)
    (hc : Coherent L.toLayout x.2 (tc x.1.conf) (view x.1.hw)) : Coherent L.toLayout y.2 (tc y.1.conf) (view y.1.hw) := by
  cases hstep with
  | ok hP hok =>
    obtain ⟨hconf, st, hst, henc, hkeep⟩ := (h _ _ _ hP).ok rfl hok
    simp only [record, hst, hconf]
    exact hc.accept hst henc hkeep
  | @error i s s' last req e hP herr =>
    rcases h i s req hP s rfl with ⟨u, t, hok, -⟩ | ⟨e', t, hfail, hconf, hkeep⟩
    · rw [herr] at hok
      cases hok
    · rw [herr] at hfail
      cases hfail
      simp only [hconf]
      exact hc.reject hkeep
  | drift hd =>
    simp only [hdrift _ _ hd]
    exact hc

theorem Run.coherent (h : Obeys call L tc view P) (hdrift : ∀ h h', drift h h' → view h' = view h)
    {x y : Dev C H × (Setting → Option Request)} (hrun : Run drift call P x y)
    (hc : Coherent L.toLayout x.2 (tc x.1.conf) (view x.1.hw)) : Coherent L.toLayout y.2 (tc y.1.conf) (view y.1.hw) := by
  induction hrun with
  | refl => exact hc
  | tail _ hstep ih => exact hstep.coherent h hdrift ih

variable (drift call L tc view P) in
/-- In every run from any words, the fields and the reported settings are those accepted last, and no call changes a
field of another setting. -/
def Maintains : Prop := ∀ (s₀ : Dev C H) (y : Dev C H × (Setting → Option Request)),
  Run drift call P (s₀, fun _ => none) y → Coherent L.toLayout y.2 (tc y.1.conf) (view y.1.hw) ∧
    ∀ i req, P i y.1 req → ∀ st, req.setting ≠ some st →
      L.KeepsField st (view y.1.hw) (view (Fallible.final (call i req) y.1).hw)

theorem Obeys.maintains (h : Obeys call L tc view P) (hdrift : ∀ h h', drift h h' → view h' = view h) :
    Maintains drift call L tc view P := fun s₀ _ hrun =>
  ⟨hrun.coherent h hdrift (coherent_start L.toLayout (tc s₀.conf) (view s₀.hw)), fun _ _ hP _ hne => h.keeps hP hne⟩

end Runs

end Lan80xx.Tc10
