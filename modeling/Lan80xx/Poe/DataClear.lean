import Lan80xx.Poe.Configure

/-!
# PoE controller: clearing the request of a powered device

`bt_port_pd_data_clear` makes the controller forget what a device has asked for by turning the port off and on again,
with two configuration calls. Each call stores the request in the cache before it sends a command, and none of them looks
at what the port was before.

- `SetEffect`: what one configuration call does to the cache and to the controller;
- `runs_btPortCfgSet`: every call has one of these effects, whatever becomes of its commands;
- `write_btPortCmd`: the parameters of the port after the command of a configuration call;
- `bt_port_pd_data_clear_iff`: when the port keeps its configuration, and when an error leaves it off but recorded as on.
-/

namespace Lan80xx.Poe

open RegBus Fallible

variable {H : Type}

/-! ## The call -/

/-- `meba_poe_port_private_status_t`: what the device has asked for. -/
structure RequestedPower where
  requestedPowerSingleMw : BitVec 32 := 0#32
  requestedPowerModeAMw : BitVec 32 := 0#32
  requestedPowerModeBMw : BitVec 32 := 0#32
  deriving DecidableEq

/-- The driver with `status.ports`. -/
structure PortDriver (H : Type) where
  driver : Driver H
  requested : Nat → RequestedPower := fun _ => {}

/-- A call that leaves `status.ports` as it is. -/
def onDriver {α : Type} (x : Call H α) : EStateM (Option Rc) (PortDriver H) α := fun s =>
  match x s.driver with
  | .ok a t => .ok a { s with driver := t }
  | .error e t => .error e { s with driver := t }

/-- `req_port_cfg`: the parameters in the cache, under another state of the port. The members that are not set here are not
read. -/
def clearRequest (enable : Bool) (cfg : PortCfg) : PortCfg :=
  { enable
    btPortPmMode := cfg.btPortPmMode
    priority := cfg.priority
    legacySupport := cfg.legacySupport
    btPsePortType := cfg.btPsePortType
    ignorePdAutoClassRequest := cfg.ignorePdAutoClassRequest
    cableLength := cfg.cableLength }

section Call

variable (bus : I2c H) (fuel : Nat) (p : Setup) (handle : Nat)

/-- A configuration call with the parameters in the cache. -/
def btPortEnable (enable : Bool) : Call H Unit := fun s =>
  btPortCfgSet bus fuel p handle (clearRequest enable (s.port handle)) s

/-- The two configuration calls. -/
def btPortToggle : Call H Unit := do
  btPortEnable bus fuel p handle false
  btPortEnable bus fuel p handle true

/-- `meba_poe_ctrl_pd69200_bt_port_pd_data_clear` -/
def btPortPdDataClear : EStateM (Option Rc) (PortDriver H) Unit := fun s =>
  if s.driver.inst.conf.chipState ≠ .chipsetFound then .error (some .error) s
  else
    (do
      onDriver (btPortToggle bus fuel p handle)
      modify fun s : PortDriver H => { s with requested := Function.update s.requested handle {} }) s

end Call

/-! ## The controller -/

/-- A transaction, and whether the controller has done what it asks for. -/
structure Handling where
  exchange : Exchange
  done : Bool

def Held.apply (w : Held) (a : Handling) : Held := if a.done then w.learn a.exchange.rx a.exchange.cmd else w

/-- A command that has come through is done unless the report refuses it; one that has failed may have been done all the
same. What is reported is what the controller holds. -/
structure Handling.Fits (a : Handling) (w : Held) : Prop where
  done : a.exchange.rc = .ok → (a.done = true ↔ a.exchange.Acked)
  reported : a.exchange.cmd.isRequest → w.apply a = w

/-- The controller handles the transactions one by one. -/
def Served (w : Held) : List Handling → Prop
  | [] => True
  | a :: l => a.Fits w ∧ Served (w.apply a) l

/-- "Set BT port parameters" -/
def Cmd.isPortSet : Cmd → Bool
  | .setBtPortParameters .. => true
  | _ => false

/-- For each command that sets the port's parameters, whether it has been done. -/
def setFlags (l : List Handling) : List Bool := (l.filter (·.exchange.cmd.isPortSet)).map (·.done)

/-- What the command makes of the parameters of a port. -/
def Cmd.write : Cmd → McuPortCfg → McuPortCfg
  | .setBtPortParameters _ cfg1 cfg2 operationMode addPower priority, q =>
    q.write cfg1 cfg2 operationMode addPower priority
  | _, q => q

/-- The parameters are some that a controller can report. -/
def McuPortCfg.Reported (q : McuPortCfg) : Prop := ∃ rx, q = .read rx

/-- However the controller has handled the transactions, it holds afterwards what `P` says. -/
def Leaves (new : List Exchange) (w : Held) (P : Held → List Bool → Prop) : Prop :=
  ∀ l, l.map (·.exchange) = new → Served w l → P (l.foldl Held.apply w) (setFlags l)

section Leaves

variable {e : Exchange} {new new' : List Exchange} {w : Held} {P Q : Held → List Bool → Prop} {k l : List Handling}
  {handle : Nat}

theorem served_append : Served w (l ++ k) ↔ Served w l ∧ Served (l.foldl Held.apply w) k := by
  induction l generalizing w with
  | nil => simp [Served]
  | cons a l ih => simp [Served, ih, and_assoc]

theorem setFlags_append : setFlags (l ++ k) = setFlags l ++ setFlags k := by
  simp [setFlags]

theorem Leaves.nil (h : P w []) : Leaves [] w P := by
  intro l hl _
  rw [List.map_eq_nil_iff.mp hl]
  exact h

/-- A transaction that does not set the parameters of a port. -/
theorem Leaves.other (hset : e.cmd.isPortSet = false) (hsave : e.cmd.isRequest ∨ e.cmd = .save)
    (h : (e.cmd.isRequest → e.rc = .ok → w.learn e.rx e.cmd = w) → Leaves new w P) : Leaves (e :: new) w P := by
  intro l hl hserved
  obtain ⟨a, l, rfl, rfl, rfl⟩ := List.map_eq_cons_iff.mp hl
  obtain ⟨hfits, hserved⟩ := hserved
  have hsame : w.apply a = w := by
    rcases hsave with hreq | hsave
    · exact hfits.reported hreq
    · rw [Held.apply, hsave]
      exact ite_self w
  have hlearn : a.exchange.cmd.isRequest → a.exchange.rc = .ok → w.learn a.exchange.rx a.exchange.cmd = w := by
    intro hreq hrc
    have hdone := (hfits.done hrc).mpr ⟨hrc, .inl hreq⟩
    rwa [Held.apply, if_pos hdone] at hsame
  rw [hsame] at hserved
  have hflags : setFlags (a :: l) = setFlags l := by simp [setFlags, hset]
  rw [List.foldl_cons, hsame, hflags]
  exact h hlearn l rfl hserved

/-- A command that sets the parameters of a port. -/
theorem Leaves.set (hset : e.cmd.isPortSet = true)
    (h : ∀ done, Leaves new (if done then w.learn e.rx e.cmd else w) fun v d => P v (done :: d)) :
    Leaves (e :: new) w P := by
  intro l hl hserved
  obtain ⟨a, l, rfl, rfl, rfl⟩ := List.map_eq_cons_iff.mp hl
  have hflags : setFlags (a :: l) = a.done :: setFlags l := by simp [setFlags, hset]
  rw [hflags]
  exact h a.done l rfl hserved.2

theorem Leaves.mono (h : Leaves new w P) (hPQ : ∀ v d, P v d → Q v d) : Leaves new w Q := fun l hl hserved =>
  hPQ _ _ (h l hl hserved)

theorem Leaves.append (h : Leaves new w fun v d => Leaves new' v fun v' d' => P v' (d ++ d')) :
    Leaves (new ++ new') w P := by
  intro l hl hserved
  obtain ⟨l, k, rfl, rfl, rfl⟩ := List.map_eq_append_iff.mp hl
  obtain ⟨hl, hk⟩ := served_append.mp hserved
  rw [List.foldl_append, setFlags_append]
  exact h l rfl hl k rfl hk

/-- The report of the port's parameters. -/
theorem reported_of_learn {rx : Msg} {channel : Byte} (h : w.learn rx (.getBtPortParameters channel) = w) :
    w.port channel = .read rx := by
  have hport := congrArg (fun v : Held => v.port channel) h
  rw [← hport]
  exact Function.update_self _ _ _

theorem port_learn_btPortCmd (rx : Msg) (p : Setup) (mcu : McuPortCfg) (g : GlobalCfg) (req cfg : PortCfg) :
    (w.learn rx (p.btPortCmd handle mcu g req cfg)).port (channelOf handle) =
      (p.btPortCmd handle mcu g req cfg).write (w.port (channelOf handle)) :=
  Function.update_self _ _ _

end Leaves

/-! ## One configuration call -/

/-- The cache when it is compared with the request. -/
def Setup.comparedCfg (p : Setup) (g : GlobalCfg) (req cfg : PortCfg) (mcu : McuPortCfg) : PortCfg :=
  p.preparedCfg cfg (req.complete cfg g) g mcu

/-- The cache once the request is stored. -/
def Setup.updatedCfg (p : Setup) (g : GlobalCfg) (req cfg : PortCfg) (mcu : McuPortCfg) : PortCfg :=
  p.storedCfg (p.comparedCfg g req cfg mcu) (req.complete cfg g) (p.requestedMode req g mcu)

/-- The command for a controller with the parameters `q`. -/
def Setup.updateCmd (p : Setup) (handle : Nat) (g : GlobalCfg) (req cfg : PortCfg) (mcu q : McuPortCfg) : Cmd :=
  p.btPortCmd handle q g (req.complete cfg g) (p.updatedCfg g req cfg mcu)

/-- What `bt_port_cfg_set` does for a PoE port: whether it returns OK, the cache, the parameters in the controller, and
whether the command that sets them has been done. -/
inductive SetEffect (p : Setup) (g : GlobalCfg) (handle : Nat) (req cfg : PortCfg) (mcu q : McuPortCfg) :
    Bool → PortCfg → McuPortCfg → List Bool → Prop
  | refused : SetEffect p g handle req cfg mcu q false cfg q []
  | agrees : (p.comparedCfg g req cfg mcu).btAgrees (req.complete cfg g) →
      SetEffect p g handle req cfg mcu q true (p.comparedCfg g req cfg mcu) q []
  | unread : SetEffect p g handle req cfg mcu q false (p.comparedCfg g req cfg mcu) q []
  | same : q.Reported → ¬p.paramChanged q g (p.updatedCfg g req cfg mcu) →
      SetEffect p g handle req cfg mcu q true (p.updatedCfg g req cfg mcu) q []
  | sent (ok done : Bool) : q.Reported → p.paramChanged q g (p.updatedCfg g req cfg mcu) →
      SetEffect p g handle req cfg mcu q ok (p.updatedCfg g req cfg mcu)
        (if done then (p.updateCmd handle g req cfg mcu q).write q else q) [done]

/-- A configuration call has run from `s` to `t`. -/
structure HasSet (p : Setup) (handle : Nat) (req : PortCfg) (s t : Driver H) (ok : Bool) : Prop where
  global : t.global = s.global
  log : ∃ new, t.log = s.log ++ new ∧ ∀ w, Leaves new w fun v d => SetEffect p s.global handle req (s.port handle)
    (s.mcu handle) (w.port (channelOf handle)) ok (t.port handle) (v.port (channelOf handle)) d

/-- Nothing has been set between the states. -/
structure Quiet (s t : Driver H) : Prop where
  global : t.global = s.global
  port : t.port = s.port
  log : ∃ new, t.log = s.log ++ new ∧ ∀ w, Leaves new w fun v d => v = w ∧ d = []

section Runs

variable {bus : I2c H} {fuel : Nat} {p : Setup} {handle : Nat} {req : PortCfg} {s t u : Driver H}

theorem Quiet.trans (h : Quiet s t) (h' : Quiet t u) : Quiet s u := by
  obtain ⟨new, hlog, hnew⟩ := h.log
  obtain ⟨new', hlog', hnew'⟩ := h'.log
  refine ⟨h'.global.trans h.global, h'.port.trans h.port, new ++ new', ?_, fun w => Leaves.append ?_⟩
  · rw [hlog', hlog, List.append_assoc]
  · refine (hnew w).mono ?_
    rintro v d ⟨rfl, rfl⟩
    exact hnew' v

@[simp] theorem port_storePort (s : Driver H) (handle : Nat) (cfg : PortCfg) :
    (s.storePort handle cfg).port handle = cfg := Function.update_self _ _ _

theorem quiet_self (s : Driver H) : Quiet s s :=
  ⟨rfl, rfl, [], (List.append_nil _).symm, fun _ => Leaves.nil ⟨rfl, rfl⟩⟩

theorem quiet_exchanged (inst : Inst H) {e : Exchange} (hset : e.cmd.isPortSet = false)
    (hsave : e.cmd.isRequest ∨ e.cmd = .save) : Quiet s (s.exchanged inst e) :=
  ⟨rfl, rfl, [e], rfl, fun _ => Leaves.other hset hsave fun _ => Leaves.nil ⟨rfl, rfl⟩⟩

theorem quiet_mcu (mcu : Nat → McuPortCfg) : Quiet s { s with mcu } :=
  ⟨rfl, rfl, [], (List.append_nil _).symm, fun _ => Leaves.nil ⟨rfl, rfl⟩⟩

theorem runs_exchanged {c : Cmd} {T : Msg → Driver H → Prop} {E : Driver H → Prop}
    (hfail : ∀ inst rc rx, rc ≠ .ok → E (u.exchanged inst ⟨c, rc, rx⟩))
    (hok : ∀ inst rx, T rx (u.exchanged inst ⟨c, .ok, rx⟩)) : Runs (transact bus fuel c) u T E := by
  have h := @runs_transact H bus fuel u E c u.inst [] T
  rw [after_nil] at h
  exact h hfail hok

theorem runs_readBack : Runs (do btGetBtPortParameters bus fuel handle; saveCommand bus fuel) u (fun _ => Quiet u)
    (Quiet u) := by
  refine Runs.bind (Runs.bind (runs_exchanged (fun inst rc rx _ => ?_) fun inst rx => .inr (.inr ⟨(), _, rfl, ?_⟩)))
  · exact quiet_exchanged inst rfl (.inl rfl)
  · have hread := (@quiet_exchanged H u inst ⟨.getBtPortParameters (channelOf handle), .ok, rx⟩ rfl (.inl rfl)).trans
      (quiet_mcu (Function.update u.mcu handle (.read rx)))
    exact Runs.bind (runs_exchanged (fun inst' _ _ _ => hread.trans (quiet_exchanged inst' rfl (.inr rfl)))
      fun inst' _ => Runs.pure (hread.trans (quiet_exchanged inst' rfl (.inr rfl))))

/-- The request has been stored, and what differs has been set. -/
structure HasUpdated (p : Setup) (handle : Nat) (req : PortCfg) (mode : Byte) (s t : Driver H) (ok : Bool) : Prop where
  global : t.global = s.global
  port : t.port handle = p.storedCfg (s.port handle) req mode
  log : ∃ new, t.log = s.log ++ new ∧ ∀ w, Leaves new w fun v d =>
    (ok = true ∧ ¬p.paramChanged (s.mcu handle) s.global (t.port handle) ∧ v = w ∧ d = []) ∨
    (p.paramChanged (s.mcu handle) s.global (t.port handle) ∧ ∃ done, d = [done] ∧ v.port (channelOf handle) =
      if done then (p.btPortCmd handle (s.mcu handle) s.global req (t.port handle)).write (w.port (channelOf handle))
      else w.port (channelOf handle))

theorem Runs.mono {α : Type} {x : Call H α} {Q R : α → Driver H → Prop} {E F : Driver H → Prop} (h : Runs x s Q E)
    (hQR : ∀ a t, Q a t → R a t) (hEF : ∀ t, E t → F t) : Runs x s R F := by
  rcases h with h | ⟨rc, t, hx, hE⟩ | ⟨a, t, hx, hQ⟩
  · exact .inl h
  · exact .inr (.inl ⟨rc, t, hx, hEF t hE⟩)
  · exact .inr (.inr ⟨a, t, hx, hQR a t hQ⟩)

theorem runs_btPortUpdate {mode : Byte} : Runs (btPortUpdate bus fuel p handle req mode) s
    (fun _ t => HasUpdated p handle req mode s t true) (fun t => HasUpdated p handle req mode s t false) := by
  obtain ⟨cfg, hcfg⟩ : ∃ cfg, cfg = p.storedCfg (s.port handle) req mode := ⟨_, rfl⟩
  have hcall : btPortUpdate bus fuel p handle req mode s =
      if p.paramChanged (s.mcu handle) s.global cfg then
        (do
          let _ ← transact bus fuel (p.btPortCmd handle (s.mcu handle) s.global req cfg)
          btGetBtPortParameters bus fuel handle
          saveCommand bus fuel) (s.storePort handle cfg)
      else .ok () (s.storePort handle cfg) := by
    rw [hcfg]
    rfl
  have hport := port_storePort s handle cfg
  rw [Runs, hcall]
  by_cases hchanged : p.paramChanged (s.mcu handle) s.global cfg
  · rw [if_pos hchanged]
    -- whatever comes behind the command sets nothing
    have hset {inst : Inst H} {rc : Rc} {rx : Msg} {ok : Bool} (t : Driver H) (hq : Quiet ((s.storePort handle cfg).exchanged
        inst ⟨p.btPortCmd handle (s.mcu handle) s.global req cfg, rc, rx⟩) t) : HasUpdated p handle req mode s t ok := by
      obtain ⟨new, hlog, hnew⟩ := hq.log
      have ht : t.port handle = cfg := by
        rw [hq.port]
        exact hport
      refine ⟨hq.global, ht.trans hcfg, _ :: new, hlog.trans (List.append_assoc ..), fun w => Leaves.set rfl fun done => ?_⟩
      refine (hnew _).mono ?_
      rintro v d ⟨rfl, rfl⟩
      rw [ht]
      refine .inr ⟨hchanged, done, rfl, ?_⟩
      cases done with
      | true => exact port_learn_btPortCmd rx ..
      | false => rfl
    exact Runs.bind (runs_exchanged (fun _ _ _ _ => hset _ (quiet_self _))
      fun _ _ => runs_readBack.mono (fun _ => hset) hset)
  · rw [if_neg hchanged]
    refine .inr (.inr ⟨(), _, rfl, rfl, hport.trans hcfg, [], (List.append_nil _).symm, fun w => Leaves.nil ?_⟩)
    rw [hport]
    exact .inl ⟨rfl, hchanged, rfl, rfl⟩

/-- A call that has read the parameters of the port has the effect of what it does then. -/
theorem HasUpdated.hasSet {rx : Msg} {ok : Bool} (hglobal : u.global = s.global)
    (hport : u.port handle = p.comparedCfg s.global req (s.port handle) (s.mcu handle)) (hmcu : u.mcu handle = .read rx)
    (hlog : u.log = s.log ++ [⟨.getBtPortParameters (channelOf handle), .ok, rx⟩])
    (h : HasUpdated p handle (req.complete (s.port handle) s.global) (p.requestedMode req s.global (s.mcu handle)) u t ok) :
    HasSet p handle req s t ok := by
  have hupdated : t.port handle = p.updatedCfg s.global req (s.port handle) (s.mcu handle) := by
    rw [h.port, hport]
    rfl
  obtain ⟨new, hnewlog, hnew⟩ := h.log
  refine ⟨h.global.trans hglobal, _ :: new, by rw [hnewlog, hlog, List.append_assoc]; rfl, fun w => ?_⟩
  refine Leaves.other rfl (.inl rfl) fun hlearn => (hnew w).mono fun v d hv => ?_
  -- the controller has reported the parameters that it holds
  have hq : w.port (channelOf handle) = .read rx := reported_of_learn (hlearn rfl rfl)
  rw [hmcu, ← hq, hglobal, hupdated] at hv
  rw [hupdated]
  obtain ⟨rfl, hsame, rfl, rfl⟩ | ⟨hchanged, done, rfl, hv⟩ := hv
  · exact .same ⟨rx, hq⟩ hsame
  · rw [hv]
    exact .sent ok done ⟨rx, hq⟩ hchanged

theorem runs_btPortWrite : Runs (btPortWrite bus fuel p handle (req.complete (s.port handle) s.global)
      (p.requestedMode req s.global (s.mcu handle)))
    (s.storePort handle (p.comparedCfg s.global req (s.port handle) (s.mcu handle)))
    (fun _ t => HasSet p handle req s t true) (fun t => HasSet p handle req s t false) := by
  refine Runs.bind (Runs.bind (runs_exchanged (fun inst rc rx _ => ?_) fun inst rx => .inr (.inr ⟨(), _, rfl, ?_⟩)))
  · refine ⟨rfl, _, rfl, fun w => Leaves.other rfl (.inl rfl) fun _ => Leaves.nil ?_⟩
    rw [Driver.exchanged, port_storePort]
    exact .unread
  · exact runs_btPortUpdate.mono (fun _ _ => HasUpdated.hasSet rfl (port_storePort ..) (Function.update_self ..) rfl)
      fun _ => HasUpdated.hasSet rfl (port_storePort ..) (Function.update_self ..) rfl

theorem runs_btPortCfgSet (hhandle : handle < p.portPoeLength) : Runs (btPortCfgSet bus fuel p handle req) s
    (fun _ t => HasSet p handle req s t true) (fun t => HasSet p handle req s t false) := by
  obtain ⟨cfg, hcfg⟩ : ∃ cfg, cfg = p.comparedCfg s.global req (s.port handle) (s.mcu handle) := ⟨_, rfl⟩
  have hcall : btPortCfgSet bus fuel p handle req s =
      if s.inst.conf.chipState ≠ .chipsetFound then .error (some .error) s
      else if p.portMapLength ≤ handle then .error (some .error) s
      else if p.portPoeLength ≤ handle then .ok () s
      else
        if ((s.storePort handle cfg).port handle).btAgrees (req.complete (s.port handle) s.global) ∧
            ¬(s.mcu handle).btPortOperationMode ≠ p.requestedMode req s.global (s.mcu handle) then
          .ok () (s.storePort handle cfg)
        else
          btPortWrite bus fuel p handle (req.complete (s.port handle) s.global)
            (p.requestedMode req s.global (s.mcu handle)) (s.storePort handle cfg) := by
    rw [hcfg]
    rfl
  rw [port_storePort] at hcall
  have hrefused : HasSet p handle req s s false :=
    ⟨rfl, [], (List.append_nil _).symm, fun _ => Leaves.nil .refused⟩
  rw [Runs, hcall]
  by_cases hchip : s.inst.conf.chipState ≠ .chipsetFound
  · rw [if_pos hchip]
    exact .inr (.inl ⟨_, s, rfl, hrefused⟩)
  rw [if_neg hchip]
  by_cases hmap : p.portMapLength ≤ handle
  · rw [if_pos hmap]
    exact .inr (.inl ⟨_, s, rfl, hrefused⟩)
  rw [if_neg hmap, if_neg (Nat.not_le_of_lt hhandle)]
  by_cases hagrees : cfg.btAgrees (req.complete (s.port handle) s.global) ∧
      ¬(s.mcu handle).btPortOperationMode ≠ p.requestedMode req s.global (s.mcu handle)
  · rw [if_pos hagrees]
    refine .inr (.inr ⟨(), _, rfl, rfl, [], (List.append_nil _).symm, fun w => Leaves.nil ?_⟩)
    rw [port_storePort, hcfg]
    exact .agrees (hcfg ▸ hagrees.1)
  · rw [if_neg hagrees, hcfg]
    exact runs_btPortWrite

end Runs

/-! ## The command that sets the parameters -/

theorem toNat_lowNibble (b : Byte) : (lowNibble b).toNat = b.toNat % 16 := by
  rw [lowNibble, BitVec.toNat_and]
  exact Nat.and_two_pow_sub_one_eq_mod b.toNat 4

theorem toNat_highNibble (b : Byte) : (highNibble b).toNat = b.toNat / 16 := by
  rw [highNibble, BitVec.toNat_ushiftRight]
  exact Nat.shiftRight_eq_div_pow b.toNat 4

theorem toNat_nibbles {a : Byte} (b : Byte) (ha : a.toNat < 16) :
    (a + b <<< 4).toNat = a.toNat + 16 * (b.toNat % 16) := by
  rw [BitVec.toNat_add, BitVec.toNat_shiftLeft, Nat.shiftLeft_eq]
  omega

theorem or_nibbles {a : Byte} (b : Byte) (ha : a.toNat < 16) : a ||| b <<< 4 = a + b <<< 4 := by
  apply BitVec.eq_of_toNat_eq
  rw [toNat_nibbles b ha, BitVec.toNat_or, BitVec.toNat_shiftLeft, Nat.shiftLeft_eq]
  have h := Nat.two_pow_add_eq_or_of_lt (i := 4) ha (b.toNat % 16)
  have hb : b.toNat * 2 ^ 4 % 2 ^ 8 = 2 ^ 4 * (b.toNat % 16) := by omega
  rw [hb, Nat.or_comm, ← h]
  omega

theorem lowNibble_nibbles {a : Byte} (b : Byte) (ha : a.toNat < 16) : lowNibble (a + b <<< 4) = a := by
  apply BitVec.eq_of_toNat_eq
  rw [toNat_lowNibble, toNat_nibbles b ha]
  omega

theorem highNibble_nibbles {a b : Byte} (ha : a.toNat < 16) (hb : b.toNat < 16) : highNibble (a + b <<< 4) = b := by
  apply BitVec.eq_of_toNat_eq
  rw [toNat_highNibble, toNat_nibbles b ha]
  omega

attribute [ext] McuPortCfg

section Write

variable {p : Setup} {handle : Nat} {g : GlobalCfg} {req cfg : PortCfg} {q : McuPortCfg}

theorem portEnableModes_lt (q : McuPortCfg) (cfg : PortCfg) : (portEnableModes q cfg).toNat < 16 := by
  rw [portEnableModes]
  split
  · split
    · decide
    · cases cfg.enable <;> decide
  · decide

theorem classErrorSelection_lt (p : Setup) (btEn : Bool) : (p.classErrorSelection btEn).toNat < 15 := by
  rw [Setup.classErrorSelection]
  split
  · decide
  · cases p.portMaxPowerDefault <;> decide

/-- A value that the command leaves out because it is held already, or gives. -/
theorem keepOr_changed {none old new : Byte} (h : old = new ∨ new ≠ none) :
    keepOr none old (if old ≠ new then new else none) = new := by
  by_cases hsame : old = new
  · simp [keepOr, hsame]
  · have hnew : new ≠ none := h.resolve_left hsame
    simp [keepOr, hsame, hnew]

theorem lowNibble_cfg1 (x : Byte) : lowNibble (portEnableModes q cfg ||| x <<< 4) = portEnableModes q cfg := by
  rw [or_nibbles x (portEnableModes_lt q cfg), lowNibble_nibbles x (portEnableModes_lt q cfg)]

/-- The port is on or off as the cache has it. -/
theorem enable_write_btPortCmd : ((p.btPortCmd handle q g req cfg).write q).enable = cfg.enable := by
  simp only [Setup.btPortCmd, Cmd.write, McuPortCfg.write, lowNibble_cfg1]
  rw [portEnableModes]
  cases henable : cfg.enable <;> cases hinrush : cfg.ignoredInrushCheck <;> cases hq : q.enable <;>
    cases hqinrush : q.ignoredInrushCheck <;> decide

theorem inrush_write_btPortCmd : ((p.btPortCmd handle q g req cfg).write q).ignoredInrushCheck =
    if cfg.enable then cfg.ignoredInrushCheck else q.ignoredInrushCheck && !q.enable := by
  simp only [Setup.btPortCmd, Cmd.write, McuPortCfg.write, lowNibble_cfg1]
  rw [portEnableModes]
  cases henable : cfg.enable <;> cases hinrush : cfg.ignoredInrushCheck <;> cases hq : q.enable <;>
    cases hqinrush : q.ignoredInrushCheck <;> decide

theorem autoClass_write_btPortCmd (hreq : req.ignorePdAutoClassRequest = g.globalIgnorePdAutoClassRequest)
    (hclass : g.globalIgnorePdAutoClassRequest.toNat ≤ 1) :
    ((p.btPortCmd handle q g req cfg).write q).ignorePdAutoClassRequest = g.globalIgnorePdAutoClassRequest := by
  have hbits : specialBits q g req = g.globalIgnorePdAutoClassRequest := by
    rw [specialBits, hreq, ite_self]
  have hhigh : highNibble (portEnableModes q cfg ||| g.globalIgnorePdAutoClassRequest <<< 4) =
      g.globalIgnorePdAutoClassRequest := by
    rw [or_nibbles _ (portEnableModes_lt q cfg)]
    exact highNibble_nibbles (portEnableModes_lt q cfg) (by omega)
  simp only [Setup.btPortCmd, Cmd.write, McuPortCfg.write, hbits, hhigh]
  have hvalue : g.globalIgnorePdAutoClassRequest = 0#8 ∨ g.globalIgnorePdAutoClassRequest = 1#8 := by bv_omega
  rcases hvalue with h | h <;> simp [h, noChangeNibble]

/-- Both halves of the second byte. -/
theorem cfg2_write_btPortCmd
    (hpm : q.btPortPmMode = cfg.btPortPmMode ∨ cfg.btPortPmMode.toNat < 15) :
    ((p.btPortCmd handle q g req cfg).write q).btPortPmMode = cfg.btPortPmMode ∧
      ((p.btPortCmd handle q g req cfg).write q).classErrorSelection =
        if p.classErrorDiffers q cfg then p.classErrorSelection cfg.btEn else q.classErrorSelection := by
  have hpmLt : (if q.btPortPmMode ≠ cfg.btPortPmMode then cfg.btPortPmMode else noChangeNibble).toNat < 16 := by
    by_cases hsame : q.btPortPmMode = cfg.btPortPmMode
    · rw [if_neg (not_not.mpr hsame)]
      decide
    · rw [if_pos hsame]
      exact Nat.lt_of_lt_of_le (hpm.resolve_left hsame) (by decide)
  have hselection := classErrorSelection_lt p cfg.btEn
  have hselectionLt :
      (if p.classErrorDiffers q cfg then p.classErrorSelection cfg.btEn else noChangeNibble).toNat < 16 := by
    split
    · omega
    · decide
  simp only [Setup.btPortCmd, Cmd.write, McuPortCfg.write, lowNibble_nibbles _ hpmLt,
    highNibble_nibbles hpmLt hselectionLt]
  constructor
  · refine keepOr_changed (hpm.imp_right fun h heq => ?_)
    rw [heq] at h
    exact absurd h (by decide)
  · have hne : p.classErrorSelection cfg.btEn ≠ noChangeNibble := by
      intro heq
      rw [heq] at hselection
      exact absurd hselection (by decide)
    by_cases hdiffers : p.classErrorDiffers q cfg
    · rw [if_pos hdiffers, if_pos hdiffers, keepOr, if_neg hne]
    · rw [if_neg hdiffers, if_neg hdiffers, keepOr, if_pos rfl]

/-- The mode, and what follows from it: 0xFF is the code for no change. -/
theorem mode_write_btPortCmd : ((p.btPortCmd handle q g req cfg).write q).btPortOperationMode =
      (if cfg.btPortOperationMode = noChange then q.btPortOperationMode else cfg.btPortOperationMode) ∧
    ((p.btPortCmd handle q g req cfg).write q).legacySupport =
      decide (0x03#8 < ((p.btPortCmd handle q g req cfg).write q).btPortOperationMode) := by
  refine ⟨?_, rfl⟩
  simp only [Setup.btPortCmd, Cmd.write, McuPortCfg.write]
  by_cases hnone : cfg.btPortOperationMode = noChange
  · simp [keepOr, hnone]
  · rw [if_neg hnone]
    exact keepOr_changed (.inr hnone)

theorem priority_write_btPortCmd : ((p.btPortCmd handle q g req cfg).write q).priority = cfg.priority.toByte := by
  simp only [Setup.btPortCmd, Cmd.write, McuPortCfg.write]
  exact keepOr_changed (.inr (by cases cfg.priority <;> decide))

/-- A command that changes nothing would not have been sent. -/
theorem not_paramChanged_of_write (hreq : req.ignorePdAutoClassRequest = g.globalIgnorePdAutoClassRequest)
    (hclass : g.globalIgnorePdAutoClassRequest.toNat ≤ 1)
    (hpm : q.btPortPmMode = cfg.btPortPmMode ∨ cfg.btPortPmMode.toNat < 15) (hmode : cfg.btPortOperationMode ≠ noChange)
    (hselection : cfg.enable → cfg.classErrorSelection = p.classErrorSelection cfg.btEn)
    (h : (p.btPortCmd handle q g req cfg).write q = q) : ¬p.paramChanged q g cfg := by
  have henable := @enable_write_btPortCmd p handle g req cfg q
  have hinrush := @inrush_write_btPortCmd p handle g req cfg q
  have hauto := @autoClass_write_btPortCmd p handle g req cfg q hreq hclass
  obtain ⟨hpmode, hclassError⟩ := @cfg2_write_btPortCmd p handle g req cfg q hpm
  have hopmode := (@mode_write_btPortCmd p handle g req cfg q).1
  have hpriority := @priority_write_btPortCmd p handle g req cfg q
  rw [h] at henable hinrush hauto hpmode hclassError hopmode hpriority
  rw [if_neg hmode] at hopmode
  rintro (hne | (hne | ⟨hne, hon⟩) | hne | hne | ⟨hon, hne⟩ | hne)
  · exact hne hopmode
  · exact hne henable
  · rw [if_pos hon] at hinrush
    exact hne hinrush
  · exact hne hauto
  · exact hne hpmode
  · have hsame := hselection hon
    rw [if_pos ⟨hon, hne⟩] at hclassError
    exact hne.elim (fun h => h hclassError) fun h => h hsame
  · exact hne hpriority

end Write

/-! ## Off and on again -/

/-- The cached settings of an enabled port are those that a configuration call derives for it. -/
structure Settled (p : Setup) (g : GlobalCfg) (cfg : PortCfg) : Prop where
  enable : cfg.enable = true
  autoClass : cfg.ignorePdAutoClassRequest = g.globalIgnorePdAutoClassRequest
  btEn : cfg.btEn = !cfg.legacySupport
  inrush : cfg.ignoredInrushCheck = cfg.legacySupport
  mode : cfg.btPortOperationMode =
    p.getPortTypeOperationMode cfg.btPsePortType (!cfg.legacySupport) g.globalLegacyPdClassMode
  classError : cfg.classErrorSelection = p.classErrorSelection (!cfg.legacySupport)
  addPower : cfg.addPowerForPortModeDW = 0#8

/-- The controller holds what is in the cache, and its mode is not the code for no change. -/
structure InStep (cfg : PortCfg) (q : McuPortCfg) : Prop where
  enable : q.enable = cfg.enable
  inrush : q.ignoredInrushCheck = cfg.ignoredInrushCheck
  autoClass : q.ignorePdAutoClassRequest = cfg.ignorePdAutoClassRequest
  pmMode : q.btPortPmMode = cfg.btPortPmMode
  classError : q.classErrorSelection = cfg.classErrorSelection
  mode : q.btPortOperationMode = cfg.btPortOperationMode
  known : q.btPortOperationMode ≠ noChange
  addPower : q.addPowerForPortModeDW = cfg.addPowerForPortModeDW
  priority : q.priority = cfg.priority.toByte

/-- The values that the two commands carry are none of the codes for no change, and fit into their places. -/
structure Carried (p : Setup) (g : GlobalCfg) (cfg : PortCfg) (mcu : McuPortCfg) : Prop where
  autoClass : g.globalIgnorePdAutoClassRequest.toNat ≤ 1
  pmMode : cfg.btPortPmMode.toNat < 15
  mode : p.getPortTypeOperationMode cfg.btPsePortType (!cfg.legacySupport) g.globalLegacyPdClassMode ≠ noChange
  mcuMode : mcu.btPortOperationMode ≠ noChange

/-- The cache once the port has been turned on. -/
def Setup.enabledCfg (p : Setup) (g : GlobalCfg) (cfg : PortCfg) : PortCfg :=
  { cfg with
    enable := true
    ignorePdAutoClassRequest := g.globalIgnorePdAutoClassRequest
    btEn := !cfg.legacySupport
    ignoredInrushCheck := cfg.legacySupport
    btPortOperationMode := p.getPortTypeOperationMode cfg.btPsePortType (!cfg.legacySupport) g.globalLegacyPdClassMode
    classErrorSelection := p.classErrorSelection (!cfg.legacySupport)
    addPowerForPortModeDW := 0#8 }

/-- The cache once the port has been turned off: the mode is the one that was read last. -/
def disabledCfg (g : GlobalCfg) (cfg : PortCfg) (mcu : McuPortCfg) : PortCfg :=
  { cfg with
    enable := false
    ignorePdAutoClassRequest := g.globalIgnorePdAutoClassRequest
    btPortOperationMode := mcu.btPortOperationMode
    addPowerForPortModeDW := 0#8 }

/-- What the two configuration calls do. -/
inductive ToggleEffect (p : Setup) (g : GlobalCfg) (handle : Nat) (cfg : PortCfg) (mcu q : McuPortCfg) :
    Bool → PortCfg → McuPortCfg → List Bool → Prop
  | off {cfg' : PortCfg} {q' : McuPortCfg} {d : List Bool} :
      SetEffect p g handle (clearRequest false cfg) cfg mcu q false cfg' q' d →
      ToggleEffect p g handle cfg mcu q false cfg' q' d
  | on {ok : Bool} {cfg₁ cfg' : PortCfg} {mcu₁ q₁ q' : McuPortCfg} {d₁ d₂ : List Bool} :
      SetEffect p g handle (clearRequest false cfg) cfg mcu q true cfg₁ q₁ d₁ →
      SetEffect p g handle (clearRequest true cfg₁) cfg₁ mcu₁ q₁ ok cfg' q' d₂ →
      ToggleEffect p g handle cfg mcu q ok cfg' q' (d₁ ++ d₂)

section Toggle

variable {p : Setup} {g : GlobalCfg} {handle : Nat} {cfg cfg₁ cfg' : PortCfg} {mcu mcu₁ q q₁ q' : McuPortCfg} {ok : Bool}
  {d d₁ d₂ : List Bool}

theorem enabledCfg_eq_iff : p.enabledCfg g cfg = cfg ↔ Settled p g cfg := by
  constructor
  · intro h
    have hfield {α : Type} (f : PortCfg → α) : f cfg = f (p.enabledCfg g cfg) := congrArg f h.symm
    exact ⟨hfield _, hfield _, hfield _, hfield _, hfield _, hfield _, hfield _⟩
  · rintro ⟨henable, hauto, hbt, hinrush, hmode, hclass, hadd⟩
    cases cfg
    simp_all [Setup.enabledCfg]

/-- What the first call may leave in the cache, the second one makes the same of. -/
theorem updatedCfg_on (h : cfg₁ = disabledCfg g cfg mcu ∨ cfg₁ = p.comparedCfg g (clearRequest false cfg) cfg mcu) :
    p.updatedCfg g (clearRequest true cfg₁) cfg₁ mcu₁ = p.enabledCfg g cfg := by
  rcases h with rfl | rfl <;> rfl

/-- The first call: the port is off in the cache. -/
theorem off_cases (h : SetEffect p g handle (clearRequest false cfg) cfg mcu q true cfg₁ q₁ d₁) :
    cfg₁.enable = false ∧ (∀ mcu₁, p.updatedCfg g (clearRequest true cfg₁) cfg₁ mcu₁ = p.enabledCfg g cfg) ∧
      (d₁ = [] ∧ q₁ = q ∨ ∃ done, d₁ = [done] ∧ q.Reported ∧ p.paramChanged q g (disabledCfg g cfg mcu) ∧
        q₁ = if done then (p.updateCmd handle g (clearRequest false cfg) cfg mcu q).write q else q) := by
  cases h with
  | agrees h => exact ⟨h.1, fun _ => updatedCfg_on (.inr rfl), .inl ⟨rfl, rfl⟩⟩
  | same _ _ => exact ⟨rfl, fun _ => updatedCfg_on (.inl rfl), .inl ⟨rfl, rfl⟩⟩
  | sent _ done hq hchanged => exact ⟨rfl, fun _ => updatedCfg_on (.inl rfl), .inr ⟨done, rfl, hq, hchanged, rfl⟩⟩

/-- The second call: as the port is off in the cache, the call never finds that nothing has to be done. -/
theorem on_cases (hoff : cfg₁.enable = false)
    (hon : ∀ mcu₁, p.updatedCfg g (clearRequest true cfg₁) cfg₁ mcu₁ = p.enabledCfg g cfg)
    (h : SetEffect p g handle (clearRequest true cfg₁) cfg₁ mcu₁ q₁ ok cfg' q' d₂) :
    (ok = false ∧ cfg'.enable = false ∧ d₂ = []) ∨ cfg' = p.enabledCfg g cfg ∧
      ((ok = true ∧ ¬p.paramChanged q₁ g (p.enabledCfg g cfg) ∧ d₂ = [] ∧ q' = q₁) ∨
        ∃ done, d₂ = [done] ∧ p.paramChanged q₁ g (p.enabledCfg g cfg) ∧ q₁.Reported ∧
          q' = if done then (p.updateCmd handle g (clearRequest true cfg₁) cfg₁ mcu₁ q₁).write q₁ else q₁) := by
  cases h with
  | refused => exact .inl ⟨rfl, hoff, rfl⟩
  | unread => exact .inl ⟨rfl, hoff, rfl⟩
  | agrees h =>
    have : cfg₁.enable = true := h.1
    rw [hoff] at this
    exact absurd this (by decide)
  | same _ hsame =>
    rw [hon] at hsame ⊢
    exact .inr ⟨rfl, .inl ⟨rfl, hsame, rfl, rfl⟩⟩
  | sent _ done hq hchanged =>
    rw [hon] at hchanged
    exact .inr ⟨hon _, .inr ⟨done, rfl, hchanged, hq, rfl⟩⟩

theorem cfg_of_toggle (h : ToggleEffect p g handle cfg mcu q true cfg' q' d) : cfg' = p.enabledCfg g cfg := by
  cases h with
  | on hoff hon =>
    obtain ⟨hdis, hupdated, -⟩ := off_cases hoff
    rcases on_cases hdis hupdated hon with ⟨hok, -⟩ | ⟨hcfg, -⟩
    · exact absurd hok (by decide)
    · exact hcfg

theorem updateCmd_off : p.updateCmd handle g (clearRequest false cfg) cfg mcu q =
    p.btPortCmd handle q g ((clearRequest false cfg).complete cfg g) (disabledCfg g cfg mcu) := rfl

theorem enable_write_off : ((p.updateCmd handle g (clearRequest false cfg) cfg mcu q).write q).enable = false :=
  @enable_write_btPortCmd p handle g _ (disabledCfg g cfg mcu) q

theorem updateCmd_on (hon : ∀ mcu₁, p.updatedCfg g (clearRequest true cfg₁) cfg₁ mcu₁ = p.enabledCfg g cfg) :
    p.updateCmd handle g (clearRequest true cfg₁) cfg₁ mcu₁ q₁ =
      p.btPortCmd handle q₁ g ((clearRequest true cfg₁).complete cfg₁ g) (p.enabledCfg g cfg) := by
  rw [Setup.updateCmd, hon]

theorem autoClass_le_of_reported (hq : q.Reported) : q.ignorePdAutoClassRequest.toNat ≤ 1 := by
  obtain ⟨rx, rfl⟩ := hq
  have hbit : (highNibble (rx.byte 3) &&& 1#8).toNat ≤ 1 := by
    rw [BitVec.toNat_and]
    exact Nat.and_le_right
  exact hbit

theorem legacySupport_of_reported (hq : q.Reported) : q.legacySupport = decide (0x03#8 < q.btPortOperationMode) := by
  obtain ⟨rx, rfl⟩ := hq
  rfl

/-- The command that turns the port on takes back what the one that turns it off has changed. -/
theorem write_on_off (hsettled : Settled p g cfg) (hstep : InStep cfg q) (hq : q.Reported)
    (hon : ∀ mcu₁, p.updatedCfg g (clearRequest true cfg₁) cfg₁ mcu₁ = p.enabledCfg g cfg)
    (hq₁ : q₁ = (p.updateCmd handle g (clearRequest false cfg) cfg mcu q).write q) :
    (p.updateCmd handle g (clearRequest true cfg₁) cfg₁ mcu₁ q₁).write q₁ = q := by
  rw [updateCmd_off] at hq₁
  rw [updateCmd_on hon, enabledCfg_eq_iff.mpr hsettled]
  have hauto : q.ignorePdAutoClassRequest = g.globalIgnorePdAutoClassRequest := hstep.autoClass.trans hsettled.autoClass
  have hclass : g.globalIgnorePdAutoClassRequest.toNat ≤ 1 := hauto ▸ autoClass_le_of_reported hq
  -- off: the power management mode and the class error selection stay
  have hdiffers : ¬p.classErrorDiffers q (disabledCfg g cfg mcu) := fun h => Bool.false_ne_true h.1
  have hoff := @cfg2_write_btPortCmd p handle g ((clearRequest false cfg).complete cfg g) (disabledCfg g cfg mcu) q
    (.inl hstep.pmMode)
  rw [← hq₁, if_neg hdiffers] at hoff
  -- on: everything else comes from the cache
  have hmode : cfg.btPortOperationMode ≠ noChange := hstep.mode ▸ hstep.known
  obtain ⟨hpm, hselection⟩ := @cfg2_write_btPortCmd p handle g ((clearRequest true cfg₁).complete cfg₁ g) cfg q₁
    (.inl hoff.1)
  obtain ⟨hopmode, hlegacy⟩ := @mode_write_btPortCmd p handle g ((clearRequest true cfg₁).complete cfg₁ g) cfg q₁
  rw [if_neg hmode, ← hstep.mode] at hopmode
  ext1
  · rw [enable_write_btPortCmd, hstep.enable]
  · rw [inrush_write_btPortCmd, if_pos hsettled.enable, hstep.inrush]
  · rw [autoClass_write_btPortCmd rfl hclass, hauto]
  · rw [hpm, hstep.pmMode]
  · rw [hselection, hoff.2, hstep.classError]
    split
    · rw [hsettled.classError, hsettled.btEn]
    · rfl
  · exact hopmode
  · rw [hlegacy, hopmode, legacySupport_of_reported hq]
  · exact hstep.addPower.symm
  · rw [priority_write_btPortCmd, hstep.priority]

/-- When both commands have been done and the controller holds what it has held, it has been in step. -/
theorem inStep_of_write_on_off (hsettled : Settled p g cfg) (hcarried : Carried p g cfg mcu)
    (hon : ∀ mcu₁, p.updatedCfg g (clearRequest true cfg₁) cfg₁ mcu₁ = p.enabledCfg g cfg)
    (h : (p.updateCmd handle g (clearRequest true cfg₁) cfg₁ mcu₁ q₁).write q₁ = q) : InStep cfg q := by
  rw [updateCmd_on hon, enabledCfg_eq_iff.mpr hsettled] at h
  subst h
  have hmode : cfg.btPortOperationMode ≠ noChange := hsettled.mode ▸ hcarried.mode
  obtain ⟨hpm, hselection⟩ := @cfg2_write_btPortCmd p handle g ((clearRequest true cfg₁).complete cfg₁ g) cfg q₁
    (.inr hcarried.pmMode)
  have hopmode := (@mode_write_btPortCmd p handle g ((clearRequest true cfg₁).complete cfg₁ g) cfg q₁).1
  rw [if_neg hmode] at hopmode
  refine ⟨enable_write_btPortCmd, ?_, ?_, hpm, ?_, hopmode, ?_, rfl, priority_write_btPortCmd⟩
  · rw [inrush_write_btPortCmd, if_pos hsettled.enable]
  · exact (autoClass_write_btPortCmd rfl hcarried.autoClass).trans hsettled.autoClass.symm
  · have hcfg : cfg.classErrorSelection = p.classErrorSelection cfg.btEn := by
      rw [hsettled.classError, hsettled.btEn]
    rw [hselection, hcfg]
    split
    · rfl
    · rename_i hsame
      by_contra hne
      exact hsame ⟨hsettled.enable, .inl hne⟩
  · rw [hopmode]
    exact hmode

/-- None of the commands that set the parameters has been done, or both have, with a controller in step with the cache. -/
def Restores (cfg : PortCfg) (q : McuPortCfg) (d : List Bool) : Prop := true ∉ d ∨ d = [true, true] ∧ InStep cfg q

theorem kept_of_restores (hsettled : Settled p g cfg) (h : ToggleEffect p g handle cfg mcu q true cfg' q' d)
    (hd : Restores cfg q d) : q' = q := by
  cases h with
  | on hoff hon =>
    obtain ⟨hdis, hupdated, hoff⟩ := off_cases hoff
    rcases on_cases hdis hupdated hon with ⟨hok, -⟩ | ⟨-, ⟨-, -, rfl, rfl⟩ | ⟨done₂, rfl, -, -, rfl⟩⟩
    · exact absurd hok (by decide)
    · rcases hoff with ⟨rfl, hq₁⟩ | ⟨done₁, rfl, -, -, rfl⟩
      · exact hq₁
      · cases done₁ with
        | false => rfl
        | true => simp [Restores] at hd
    · rcases hoff with ⟨rfl, rfl⟩ | ⟨done₁, rfl, hq, -, rfl⟩
      · cases done₂ with
        | false => rfl
        | true => simp [Restores] at hd
      · rcases hd with hnone | ⟨hboth, hstep⟩
        · cases done₁ <;> cases done₂ <;> simp_all
        · cases hboth
          exact @write_on_off p g handle _ _ _ _ _ _ hsettled hstep hq hupdated rfl

theorem restores_of_kept (hsettled : Settled p g cfg) (hcarried : Carried p g cfg mcu)
    (h : ToggleEffect p g handle cfg mcu q true cfg' q' d) (hkept : q' = q) : Restores cfg q d := by
  have hselection : cfg.classErrorSelection = p.classErrorSelection cfg.btEn := by
    rw [hsettled.classError, hsettled.btEn]
  have hmode : cfg.btPortOperationMode ≠ noChange := hsettled.mode ▸ hcarried.mode
  cases h with
  | @on _ cfg₁ _ mcu₁ q₁ _ d₁ d₂ hoff hon =>
    obtain ⟨hdis, hupdated, hoff⟩ := off_cases hoff
    have hon := on_cases hdis hupdated hon
    rw [enabledCfg_eq_iff.mpr hsettled] at hon
    have hwriteOn : p.updateCmd handle g (clearRequest true cfg₁) cfg₁ mcu₁ q₁ =
        p.btPortCmd handle q₁ g ((clearRequest true cfg₁).complete cfg₁ g) cfg := by
      rw [updateCmd_on hupdated, enabledCfg_eq_iff.mpr hsettled]
    -- the port has been turned on without having been turned off
    have honly : q₁ = q → p.paramChanged q₁ g cfg →
        q' ≠ (p.updateCmd handle g (clearRequest true cfg₁) cfg₁ mcu₁ q₁).write q₁ := by
      rintro rfl hchanged heq
      rw [hkept, hwriteOn] at heq
      exact not_paramChanged_of_write rfl hcarried.autoClass (.inr hcarried.pmMode) hmode (fun _ => hselection) heq.symm
        hchanged
    rcases hon with ⟨hok, -⟩ | ⟨-, ⟨-, hsame, rfl, rfl⟩ | ⟨done₂, rfl, hchanged₂, -, hq'⟩⟩
    · exact absurd hok (by decide)
    · rcases hoff with ⟨rfl, -⟩ | ⟨done₁, rfl, -, -, hq₁⟩
      · exact .inl (by simp)
      · cases done₁ with
        | false => exact .inl (by simp)
        | true =>
          have hdisabled : q'.enable = false := by
            rw [hq₁]
            exact @enable_write_off p g handle cfg mcu q
          refine absurd (.inr (.inl (.inl ?_))) hsame
          rw [hdisabled, hsettled.enable]
          exact Bool.false_ne_true
    · rcases hoff with ⟨rfl, hq₁⟩ | ⟨done₁, rfl, -, hchanged₁, hq₁⟩
      · cases done₂ with
        | false => exact .inl (by simp)
        | true => exact absurd hq' (honly hq₁ hchanged₂)
      · cases done₁ with
        | false =>
          cases done₂ with
          | false => exact .inl (by simp)
          | true => exact absurd hq' (honly hq₁ hchanged₂)
        | true =>
          cases done₂ with
          | false =>
            -- the port has been turned off only
            have hfix : (p.updateCmd handle g (clearRequest false cfg) cfg mcu q).write q = q :=
              hq₁.symm.trans (hq'.symm.trans hkept)
            rw [updateCmd_off] at hfix
            exact absurd hchanged₁ (not_paramChanged_of_write rfl hcarried.autoClass (.inr hcarried.pmMode) hcarried.mcuMode
              (fun h => absurd h Bool.false_ne_true) hfix)
          | true => exact .inr ⟨rfl, @inStep_of_write_on_off p g handle _ _ _ _ _ _ hsettled hcarried hupdated
            (hq'.symm.trans hkept)⟩

theorem misled_iff (hq : q.enable = true) (h : ToggleEffect p g handle cfg mcu q false cfg' q' d) :
    (cfg'.enable = true ∧ q'.enable = false) ↔ d = [true, false] := by
  cases h with
  | off hoff =>
    cases hoff with
    | refused => simp [hq]
    | unread => simp [hq]
    | sent _ done _ _ =>
      have hdis : (p.updatedCfg g (clearRequest false cfg) cfg mcu).enable = false := rfl
      simp [hdis]
  | @on _ cfg₁ _ mcu₁ q₁ _ d₁ d₂ hoff hon =>
    obtain ⟨hdis, hupdated, hoff⟩ := off_cases hoff
    rcases on_cases hdis hupdated hon with ⟨-, hcfg', rfl⟩ | ⟨rfl, ⟨hok, -⟩ | ⟨done₂, rfl, -, -, hq'⟩⟩
    · have hlen : d₁ ≠ [true, false] := by
        rcases hoff with ⟨rfl, -⟩ | ⟨done, rfl, -⟩ <;> simp
      simp [hcfg', hlen]
    · exact absurd hok (by decide)
    · have hon' : (p.enabledCfg g cfg).enable = true := rfl
      have hwrite : ((p.updateCmd handle g (clearRequest true cfg₁) cfg₁ mcu₁ q₁).write q₁).enable = true := by
        rw [updateCmd_on hupdated]
        exact enable_write_btPortCmd
      have hoffWrite := @enable_write_off p g handle cfg mcu q
      rcases hoff with ⟨rfl, rfl⟩ | ⟨done₁, rfl, -, -, rfl⟩
      · cases done₂ <;> simp [hq', hq, hwrite]
      · cases done₁ <;> cases done₂ <;> simp_all

end Toggle

/-! ## What becomes of the configuration -/

/-- The port has the configuration it has had, in the cache and in the controller. -/
def Kept (handle : Nat) (s t : Driver H) (w w' : Held) : Prop :=
  t.port handle = s.port handle ∧ w'.port (channelOf handle) = w.port (channelOf handle)

/-- A port that has been on is off in the controller, and recorded as on. -/
def Misled (handle : Nat) (s t : Driver H) (w w' : Held) : Prop :=
  ((s.port handle).enable = true ∧ (w.port (channelOf handle)).enable = true) ∧
    (t.port handle).enable = true ∧ (w'.port (channelOf handle)).enable = false

/-- The two configuration calls have run from `s` to `t`. -/
def HasToggled (p : Setup) (handle : Nat) (s t : Driver H) (ok : Bool) : Prop :=
  ∃ new, t.log = s.log ++ new ∧ ∀ w, Leaves new w fun v d => ToggleEffect p s.global handle (s.port handle) (s.mcu handle)
    (w.port (channelOf handle)) ok (t.port handle) (v.port (channelOf handle)) d

section Clear

variable {bus : I2c H} {fuel : Nat} {p : Setup} {handle : Nat}

theorem HasSet.toggled {s t u : Driver H} {ok : Bool} (ht : HasSet p handle (clearRequest false (s.port handle)) s t true)
    (hu : HasSet p handle (clearRequest true (t.port handle)) t u ok) : HasToggled p handle s u ok := by
  obtain ⟨new, hlog, hnew⟩ := ht.log
  obtain ⟨new', hlog', hnew'⟩ := hu.log
  refine ⟨new ++ new', by rw [hlog', hlog, List.append_assoc], fun w => Leaves.append ((hnew w).mono fun v d hoff => ?_)⟩
  refine (hnew' v).mono fun v' d' hon => ?_
  rw [ht.global] at hon
  exact .on hoff hon

theorem runs_btPortToggle {s : Driver H} (hhandle : handle < p.portPoeLength) : Runs (btPortToggle bus fuel p handle) s
    (fun _ t => HasToggled p handle s t true) (fun t => HasToggled p handle s t false) := by
  have hoff : Runs (btPortEnable bus fuel p handle false) s _ _ := runs_btPortCfgSet hhandle
  refine Runs.bind (hoff.mono (fun _ t ht => ?_) fun t ht => ?_)
  · have hon : Runs (btPortEnable bus fuel p handle true) t _ _ := runs_btPortCfgSet hhandle
    exact hon.mono (fun _ _ => ht.toggled) fun _ => ht.toggled
  · obtain ⟨new, hlog, hnew⟩ := ht.log
    exact ⟨new, hlog, fun w => (hnew w).mono fun v d h => .off h⟩

/-- Behind the PoE ports nothing is done. -/
theorem btPortToggle_of_not_poe {s : Driver H} (hhandle : p.portPoeLength ≤ handle) :
    (∀ t, btPortToggle bus fuel p handle s = .ok () t → t = s) ∧
      ∀ e t, btPortToggle bus fuel p handle s = .error e t → t = s := by
  have hset (req : PortCfg) : btPortCfgSet bus fuel p handle req s = .ok () s ∨
      btPortCfgSet bus fuel p handle req s = .error (some .error) s := by
    rw [btPortCfgSet, if_pos hhandle]
    split
    · exact .inr rfl
    · split
      · exact .inr rfl
      · exact .inl rfl
  rcases hset (clearRequest false (s.port handle)) with hoff | hoff
  · rcases hset (clearRequest true (s.port handle)) with hon | hon
    · simp [btPortToggle, Bind.bind, EStateM.bind, btPortEnable, hoff, hon, eq_comm]
    · simp [btPortToggle, Bind.bind, EStateM.bind, btPortEnable, hoff, hon, eq_comm]
  · simp [btPortToggle, Bind.bind, EStateM.bind, btPortEnable, hoff, eq_comm]

theorem onDriver_ok {α : Type} {x : Call H α} {s : PortDriver H} {a : α} {u : Driver H} (h : x s.driver = .ok a u) :
    onDriver x s = .ok a { s with driver := u } := by
  rw [onDriver, h]

/-- The call ends where its configuration calls end. -/
theorem btPortPdDataClear_ok {s t : PortDriver H} (h : btPortPdDataClear bus fuel p handle s = .ok () t) :
    btPortToggle bus fuel p handle s.driver = .ok () t.driver ∧
      t.requested = Function.update s.requested handle {} := by
  rw [btPortPdDataClear] at h
  split at h
  · cases h
  cases htoggle : btPortToggle bus fuel p handle s.driver with
  | ok a u =>
    rw [bind_of_ok (onDriver_ok htoggle)] at h
    cases h
    exact ⟨rfl, rfl⟩
  | error e u => simp [Bind.bind, EStateM.bind, onDriver, htoggle] at h

theorem btPortPdDataClear_error {s t : PortDriver H} {rc : Rc}
    (h : btPortPdDataClear bus fuel p handle s = .error (some rc) t) :
    (t = s ∨ btPortToggle bus fuel p handle s.driver = .error (some rc) t.driver) ∧ t.requested = s.requested := by
  rw [btPortPdDataClear] at h
  split at h
  · cases h
    exact ⟨.inl rfl, rfl⟩
  cases htoggle : btPortToggle bus fuel p handle s.driver with
  | ok a u =>
    rw [bind_of_ok (onDriver_ok htoggle)] at h
    cases h
  | error e u =>
    simp [Bind.bind, EStateM.bind, onDriver, htoggle] at h
    obtain ⟨rfl, rfl⟩ := h
    exact ⟨.inr rfl, rfl⟩

/-- For every PoE port, whatever becomes of the commands and however the controller handles them. When the call returns
OK, the port has kept its configuration if it has been on with settled settings, and none of the commands that set its
parameters has been done, or both have, with a controller in step; and for values that the commands can carry, only then.
When it returns an error, a port that has been on is off and recorded as on if and only if the first command has been
done and the second one has not. -/
theorem bt_port_pd_data_clear_iff (bus : I2c H) (fuel : Nat) (p : Setup) (handle : Nat) (s : PortDriver H) (w : Held)
    (l : List Handling) (hserved : Served w l) :
    (∀ t, btPortPdDataClear bus fuel p handle s = .ok () t → t.driver.log = s.driver.log ++ l.map (·.exchange) →
      let kept := Kept handle s.driver t.driver w (l.foldl Held.apply w)
      let keeps := p.portPoeLength ≤ handle ∨ Settled p s.driver.global (s.driver.port handle) ∧
        Restores (s.driver.port handle) (w.port (channelOf handle)) (setFlags l)
      (keeps → kept) ∧
        (Carried p s.driver.global (s.driver.port handle) (s.driver.mcu handle) → kept → keeps)) ∧
    ∀ rc t, btPortPdDataClear bus fuel p handle s = .error (some rc) t →
      t.driver.log = s.driver.log ++ l.map (·.exchange) →
      (Misled handle s.driver t.driver w (l.foldl Held.apply w) ↔
        ((s.driver.port handle).enable = true ∧ (w.port (channelOf handle)).enable = true) ∧
          setFlags l = [true, false]) := by
  have hnone {u : Driver H} (hu : u = s.driver) (hlog : u.log = s.driver.log ++ l.map (·.exchange)) : l = [] := by
    rw [hu] at hlog
    exact List.map_eq_nil_iff.mp (List.self_eq_append_right.mp hlog)
  have heffect {ok : Bool} {u : Driver H} (hlog : u.log = s.driver.log ++ l.map (·.exchange))
      (h : HasToggled p handle s.driver u ok) : ToggleEffect p s.driver.global handle (s.driver.port handle)
        (s.driver.mcu handle) (w.port (channelOf handle)) ok (u.port handle)
        ((l.foldl Held.apply w).port (channelOf handle)) (setFlags l) := by
    obtain ⟨new, hnew, hleaves⟩ := h
    exact hleaves w l (List.append_cancel_left (hlog.symm.trans hnew)) hserved
  constructor
  · intro t hrun hlog
    have htoggle := (btPortPdDataClear_ok hrun).1
    by_cases hhandle : p.portPoeLength ≤ handle
    · have ht := (btPortToggle_of_not_poe hhandle).1 _ htoggle
      obtain rfl := hnone ht hlog
      exact ⟨fun _ => ⟨by rw [ht], rfl⟩, fun _ _ => .inl hhandle⟩
    · have h := heffect hlog ((runs_btPortToggle (Nat.lt_of_not_le hhandle)).ok htoggle)
      have hcfg := cfg_of_toggle h
      constructor
      · intro hkeeps
        obtain ⟨hsettled, hrestores⟩ := hkeeps.resolve_left hhandle
        exact ⟨hcfg.trans (enabledCfg_eq_iff.mpr hsettled), kept_of_restores hsettled h hrestores⟩
      · intro hcarried hkept
        have hsettled := enabledCfg_eq_iff.mp (hcfg.symm.trans hkept.1)
        exact .inr ⟨hsettled, restores_of_kept hsettled hcarried h hkept.2⟩
  · intro rc t hrun hlog
    refine and_congr_right fun hon => ?_
    have hnothing (ht : t.driver = s.driver) : ((t.driver.port handle).enable = true ∧
        ((l.foldl Held.apply w).port (channelOf handle)).enable = false) ↔ setFlags l = [true, false] := by
      obtain rfl := hnone ht hlog
      simp [hon.2, setFlags]
    rcases (btPortPdDataClear_error hrun).1 with rfl | htoggle
    · exact hnothing rfl
    · by_cases hhandle : p.portPoeLength ≤ handle
      · exact hnothing ((btPortToggle_of_not_poe hhandle).2 _ _ htoggle)
      · exact misled_iff hon.2 (heffect hlog ((runs_btPortToggle (Nat.lt_of_not_le hhandle)).error htoggle))

end Clear

/-! ### A port that is off -/

deriving instance DecidableEq for Exchange

section Bench

variable {w : Held} {e : Exchange} {channel : Byte} {rx : Msg}

theorem fits_report (h : w.port channel = .read rx) : Handling.Fits ⟨⟨.getBtPortParameters channel, .ok, rx⟩, true⟩ w := by
  refine ⟨fun _ => ⟨fun _ => ⟨rfl, .inl rfl⟩, fun _ => rfl⟩, fun _ => ?_⟩
  have hport : Function.update w.port channel (.read rx) = w.port := by
    rw [← h]
    exact Function.update_eq_self _ _
  have happly : w.apply ⟨⟨.getBtPortParameters channel, .ok, rx⟩, true⟩ =
      { w with port := Function.update w.port channel (.read rx) } := rfl
  rw [happly, hport]

theorem fits_acked (hreq : e.cmd.isRequest = false) (h : e.Acked) : Handling.Fits ⟨e, true⟩ w :=
  ⟨fun _ => ⟨fun _ => h, fun _ => rfl⟩, fun hreq' => by simp [hreq] at hreq'⟩

end Bench

def benchSetup : Setup where
  isBt := true
  portMapLength := 8
  maxPoePorts := 8#8
  poePort _ := true
  portMaxPowerDefault := .w15
  legacy90WPoh := 0x10#8
  legacy60WIgnorePdClass := 0x11#8
  legacy90WIgnorePdClass := 0x10#8
  beyond _ _ := 0x13#8

/-- A port of 15 W with low priority, on or off. -/
def benchReport (seqNum enable : Byte) : Msg :=
  pd69200UpdateCheckSum (message [telemetryKey, seqNum, 0x00#8, enable, 0x00#8, 0x03#8, 0x00#8, 0x03#8])

def benchAck (seqNum : Byte) : Msg := pd69200UpdateCheckSum (message [reportKey, seqNum, 0x00#8, 0x00#8])

/-- The port is off in the cache and in the controller, and the controller does what it is told. -/
def benchStart : PortDriver (List Byte) where
  driver :=
    { inst := ⟨{ chipState := .chipsetFound }, (benchReport 1#8 0#8).toList ++ (benchAck 2#8).toList ++
        (benchReport 3#8 1#8).toList ++ (benchAck 4#8).toList⟩
      port _ := { priority := .low, btEn := true, btPortOperationMode := 0x03#8 }
      mcu _ := .read (benchReport 1#8 0#8) }

def benchHeld : Held := { port := fun _ => .read (benchReport 1#8 0#8) }

def benchHandlings : List Handling :=
  [⟨⟨.getBtPortParameters 0#8, .ok, benchReport 1#8 0#8⟩, true⟩,
    ⟨⟨.setBtPortParameters 0#8 0x01#8 0xFF#8 0xFF#8 0x00#8 0xFF#8, .ok, benchAck 2#8⟩, true⟩,
    ⟨⟨.getBtPortParameters 0#8, .ok, benchReport 3#8 1#8⟩, true⟩, ⟨⟨.save, .ok, benchAck 4#8⟩, true⟩]

theorem benchHandlings_served : Served benchHeld benchHandlings :=
  ⟨fits_report rfl, fits_acked rfl (by decide +kernel), fits_report (by decide +kernel),
    fits_acked rfl (by decide +kernel), trivial⟩

/-- The state in which a call returns OK. -/
def returnedIn : EStateM.Result (Option Rc) (PortDriver H) Unit → Option (PortDriver H)
  | .ok _ t => some t
  | .error _ _ => none

theorem eq_ok_of_returnedIn {r : EStateM.Result (Option Rc) (PortDriver H) Unit} {t : PortDriver H}
    (h : returnedIn r = some t) : r = .ok () t := by
  cases r with
  | ok a u =>
    cases h
    rfl
  | error e u => cases h

/-- The call returns OK, with the port on in the cache. -/
theorem benchRun : ∃ t, btPortPdDataClear wire 40 benchSetup 0 benchStart = .ok () t ∧ (t.driver.port 0).enable = true ∧
    t.driver.log = benchStart.driver.log ++ benchHandlings.map (·.exchange) := by
  have hrun : (returnedIn (btPortPdDataClear wire 40 benchSetup 0 benchStart)).map (fun t =>
      ((t.driver.port 0).enable, t.driver.log)) = some (true, benchHandlings.map (·.exchange)) := by
    decide +kernel
  obtain ⟨t, ht, hend⟩ := Option.map_eq_some_iff.mp hrun
  obtain ⟨hon, hlog⟩ := Prod.mk.inj hend
  exact ⟨t, eq_ok_of_returnedIn ht, hon, hlog⟩

theorem bt_port_pd_data_clear_bench : ∃ t, btPortPdDataClear wire 40 benchSetup 0 benchStart = .ok () t ∧
    ¬Kept 0 benchStart.driver t.driver benchHeld (benchHandlings.foldl Held.apply benchHeld) := by
  obtain ⟨t, hrun, -, hlog⟩ := benchRun
  refine ⟨t, hrun, fun hkept => ?_⟩
  have hcarried : Carried benchSetup benchStart.driver.global (benchStart.driver.port 0) (benchStart.driver.mcu 0) :=
    ⟨by decide, by decide, by decide, by decide⟩
  have h := ((bt_port_pd_data_clear_iff wire 40 benchSetup 0 benchStart benchHeld benchHandlings benchHandlings_served).1 t
    hrun hlog).2 hcarried hkept
  rcases h with hhandle | ⟨hsettled, -⟩
  · exact absurd hhandle (by decide)
  · exact absurd hsettled.enable (by decide)

/-- A port that has been off is on afterwards. -/
theorem not_bt_port_pd_data_clear : ¬∀ (bus : I2c (List Byte)) (fuel : Nat) (p : Setup) (handle : Nat)
    (s : PortDriver (List Byte)) (w : Held) (l : List Handling), Served w l →
    (∀ t, btPortPdDataClear bus fuel p handle s = .ok () t → t.driver.log = s.driver.log ++ l.map (·.exchange) →
      Kept handle s.driver t.driver w (l.foldl Held.apply w)) ∧
    ∀ rc t, btPortPdDataClear bus fuel p handle s = .error (some rc) t →
      t.driver.log = s.driver.log ++ l.map (·.exchange) → ¬Misled handle s.driver t.driver w (l.foldl Held.apply w) := by
  intro h
  obtain ⟨t, hrun, hon, hlog⟩ := benchRun
  have hkept := ((h wire 40 benchSetup 0 benchStart benchHeld benchHandlings benchHandlings_served).1 t hrun hlog).1
  rw [hkept] at hon
  exact absurd hon (by decide)

end Lan80xx.Poe
