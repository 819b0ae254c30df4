import Lan80xx.Lan8770.Init

/-!
# LAN8770: what initialisation, configuration and reset leave behind

Of the words, six registers are tracked: those that configuration and TC10 settings show in, and the read-data word, from
which the wake-up registers are written. The rules say what calls that return have done to these six.
-/

namespace Lan80xx.Lan8770

open Fallible RegBus Tc10

/-! ## Tracked registers -/

def tracked : List Reg :=
  [.smi basicControl, .smi masterSlaveCtrl, layout.common, layout.port, layout.sleepReg, .smi extRegRdData]

theorem tracked_ne {r : Reg} (hr : r ∈ tracked) : r ≠ .smi extRegCtrl ∧ r ≠ .smi extRegWrData := by
  simp only [tracked, List.mem_cons, List.not_mem_nil, or_false] at hr
  rcases hr with rfl | rfl | rfl | rfl | rfl | rfl <;> decide

/-- The same words in the tracked registers. -/
def SameTracked (m m' : Words) : Prop := ∀ r ∈ tracked, m' r = m r

section Words

variable {m m' : Words} {bank : BitVec 16} {offset : BitVec 8}

theorem SameTracked.update (h : SameTracked m m') (r : Reg) (v : BitVec 16) :
    SameTracked (Function.update m r v) (Function.update m' r v) := by
  intro r' hr'
  by_cases he : r' = r
  · rw [he, Function.update_self, Function.update_self]
  · rw [Function.update_of_ne he, Function.update_of_ne he, h r' hr']

theorem sameTracked_update {r : Reg} (hr : r ∉ tracked) (v : BitVec 16) : SameTracked m (Function.update m r v) :=
  fun _ hr' => Function.update_of_ne (ne_of_mem_of_not_mem hr' hr) v m

theorem SameTracked.trans {m'' : Words} (h : SameTracked m m') (h' : SameTracked m' m'') : SameTracked m m'' :=
  fun r hr => (h' r hr).trans (h r hr)

theorem sameTracked_commanded (hr : bankReg bank offset ∉ tracked) : SameTracked m (commanded m bank offset) :=
  fun _ hr' => commanded_of_ne m (tracked_ne hr').1 (ne_of_mem_of_not_mem hr' hr)

theorem sameTracked_wrote (v : BitVec 16) :
    SameTracked (Function.update m (bankReg bank offset) v) (wrote m bank offset v) := by
  intro r hr
  by_cases he : r = bankReg bank offset
  · rw [he, Function.update_self, wrote_self]
  · rw [Function.update_of_ne he, wrote, commanded_of_ne _ (tracked_ne hr).1 he, staged_of_ne m v (tracked_ne hr).2]

theorem sameTracked_setBankWords (v : BitVec 16) :
    SameTracked (Function.update m (bankReg bank offset) v) (setBankWords m bank offset v) := by
  refine SameTracked.trans (fun r hr => ?_) (sameTracked_wrote v)
  by_cases he : r = bankReg bank offset
  · rw [he, Function.update_self, Function.update_self]
  · rw [Function.update_of_ne he, Function.update_of_ne he, commanded_of_ne m (tracked_ne hr).1 he]

end Words

/-! ## Rules -/

section Rules

variable {C H : Type} (rf : SmiRegs H) {c : C} {m : Words} {n : Nat}

/-- The driver's data and the words of the tracked registers. -/
def Tracks (c : C) (m : Words) (s : Dev C H) : Prop := s.conf = c ∧ SameTracked m (rf.view s.hw)

/-- A call, when it returns: from `P` it gets to `Q`. -/
abbrev Returns {C α : Type} (P : Dev C H → Prop) (x : Call C H α) (Q : α → Dev C H → Prop) : Prop :=
  Ends P x Q fun _ => True

variable {rf}

theorem Tracks.same {m' : Words} {s : Dev C H} (h : Tracks rf c m s) (hm : SameTracked m' m) : Tracks rf c m' s :=
  ⟨h.1, hm.trans h.2⟩

theorem returns_of_sees {α : Type} {x : Call C H α} {Q : α → Dev C H → Prop}
    (h : ∀ s : Dev C H, SameTracked m (rf.view s.hw) →
      Ends (Sees rf s.hw c (rf.view s.hw)) x Q fun _ => True) : Returns (Tracks rf c m) x Q := by
  rintro s ⟨rfl, hm⟩
  exact h s hm s (sees_start rf s)

theorem Tracks.of_sees {h₀ : H} {m' : Words} {s : Dev C H} (h : Sees rf h₀ c m' s) (hm : SameTracked m m') :
    Tracks rf c m s := ⟨h.1, by rw [h.2.2]; exact hm⟩

theorem returns_rd (offset : BitVec 8) :
    Returns (Tracks rf c m) (phyDirectRegRd rf.toBus offset) fun _ => Tracks rf c m :=
  returns_of_sees fun _ hm => (ends_read_sees rf Rc.access offset fun _ _ _ => trivial).weaken
    (fun _ _ h => .of_sees h.1 hm) fun _ _ => trivial

theorem returns_wr {offset : BitVec 8} (ho : offset ≠ extRegCtrl) (v : BitVec 16) :
    Returns (Tracks rf c m) (phyDirectRegWr rf.toBus offset v)
      fun _ => Tracks rf c (Function.update m (.smi offset) (latched offset v)) :=
  returns_of_sees fun s hm => (ends_directWr rf offset v fun _ _ _ => trivial).weaken
    (fun _ _ h => .of_sees h (by rw [Words.write_of_ne ho]; exact hm.update _ _)) fun _ _ => trivial

/-- A write that touches no tracked register. -/
theorem returns_wr_apart {offset : BitVec 8} (ho : offset ≠ extRegCtrl) (hr : Reg.smi offset ∉ tracked) (v : BitVec 16) :
    Returns (Tracks rf c m) (phyDirectRegWr rf.toBus offset v) fun _ => Tracks rf c m :=
  (returns_wr ho v).weaken (fun _ _ h => h.same (sameTracked_update hr _)) fun _ h => h

theorem returns_rmw_apart (offset : BitVec 8) (ho : offset ≠ extRegCtrl) (hr : Reg.smi offset ∉ tracked)
    (value mask : BitVec 16) :
    Returns (Tracks rf c m) (phyDirectReadModWriteRegister rf.toBus offset value mask) fun _ => Tracks rf c m :=
  (returns_rd offset).bind fun _ => returns_wr_apart ho hr _

/-- A read-modify-write of a register that the PHY does not change by itself. -/
theorem returns_rmw (offset : BitVec 8) (ho : offset ≠ extRegCtrl) (hv : ¬Volatile offset) (hr : Reg.smi offset ∈ tracked)
    (value mask : BitVec 16) :
    Returns (Tracks rf c m) (phyDirectReadModWriteRegister rf.toBus offset value mask) fun _ =>
      Tracks rf c (Function.update m (.smi offset) (latched offset (modified (m (.smi offset)) value mask))) := by
  refine returns_of_sees fun s hm => (ends_directRd rf hv fun _ _ _ => trivial).bind fun v => ?_
  rintro t ⟨ht, rfl⟩
  refine ((ends_directWr rf offset _ fun _ _ _ => trivial).weaken (fun _ _ h => ?_) fun _ _ => trivial) t ht
  refine .of_sees h ?_
  rw [Words.write_of_ne ho, hm _ hr]
  exact hm.update _ _

variable {bank : BitVec 16} {offset : BitVec 8} (h0 : bank ≠ bankSmi) (h5 : bank ≤ bankInstrument)
include h0 h5

theorem returns_bankRd (hr : bankReg bank offset ∉ tracked) :
    Returns (Tracks rf c m) (phyExtBankRegRd rf.toBus n bank offset) fun _ => Tracks rf c m :=
  returns_of_sees fun _ hm => (ends_bankRd rf h0 h5 fun _ _ => trivial).weaken
    (fun _ _ h => .of_sees h.1 (hm.trans (sameTracked_commanded hr))) fun _ _ => trivial

theorem returns_bankWr (v : BitVec 16) :
    Returns (Tracks rf c m) (phyExtBankRegWr rf.toBus n bank offset v) fun _ =>
      Tracks rf c (Function.update m (bankReg bank offset) v) :=
  returns_of_sees fun _ hm => (ends_bankWr rf _ h0 h5 v fun _ _ => trivial).weaken
    (fun _ _ h => .of_sees h ((hm.update _ v).trans (sameTracked_wrote v))) fun _ _ => trivial

theorem returns_bankWr_apart (hr : bankReg bank offset ∉ tracked) (v : BitVec 16) :
    Returns (Tracks rf c m) (phyExtBankRegWr rf.toBus n bank offset v) fun _ => Tracks rf c m :=
  (returns_bankWr h0 h5 v).weaken (fun _ _ h => h.same (sameTracked_update hr v)) fun _ h => h

/-- A read-modify-write behind the banks: of the read-data word. -/
theorem returns_bankRmw (value mask : BitVec 16) :
    Returns (Tracks rf c m) (phyReadModWriteRegister rf.toBus n bank offset value mask) fun _ =>
      Tracks rf c (Function.update m (bankReg bank offset) (modified (m (.smi extRegRdData)) value mask)) := by
  refine returns_of_sees fun s hm => (ends_bankRd rf h0 h5 fun _ _ => trivial).bind fun v => ?_
  rintro t ⟨ht, rfl⟩
  refine ((ends_bankWr rf _ h0 h5 _ fun _ _ => trivial).weaken (fun _ _ h => ?_) fun _ _ => trivial) t ht
  refine .of_sees h ?_
  rw [hm (.smi extRegRdData) (by decide)]
  exact (hm.update _ _).trans (sameTracked_setBankWords _)

theorem returns_bankRmw_apart (hr : bankReg bank offset ∉ tracked) (value mask : BitVec 16) :
    Returns (Tracks rf c m) (phyReadModWriteRegister rf.toBus n bank offset value mask) fun _ => Tracks rf c m :=
  (returns_bankRmw h0 h5 value mask).weaken (fun _ _ h => h.same (sameTracked_update hr _)) fun _ h => h

end Rules

section Scripts

variable {C H : Type} {rf : SmiRegs H} {c : C} {m : Words} {n : Nat}

/-- A value for a register that is not tracked. -/
def BankValue.Apart (w : BankValue) : Prop := w.1 ≠ bankSmi ∧ w.1 ≤ bankInstrument ∧ bankReg w.1 w.2.1 ∉ tracked

instance (w : BankValue) : Decidable w.Apart := by unfold BankValue.Apart; infer_instance

theorem returns_script : ∀ ws : List BankValue, (∀ w ∈ ws, w.Apart) →
    Returns (Tracks rf c m) (writeScript rf.toBus n ws) fun _ => Tracks rf c m
  | [], _ => Ends.pure fun _ h => h
  | w :: ws, hws =>
    have hw := hws w List.mem_cons_self
    (returns_bankWr_apart hw.1 hw.2.1 hw.2.2 w.2.2).bind fun _ =>
      returns_script ws fun w' hw' => hws w' (List.mem_cons_of_mem _ hw')

theorem returns_await (offset : BitVec 8) (busyBit : BitVec 16) :
    Returns (Tracks rf c m) (awaitClear rf.toBus offset busyBit n) fun _ => Tracks rf c m :=
  returns_of_sees fun _ hm => (ends_awaitClear_any rf fun _ => trivial).weaken (fun _ _ h => .of_sees h hm)
    fun _ _ => trivial

theorem returns_modifyConf (f : C → C) :
    Returns (Tracks rf c m) (modifyConf f) fun _ => Tracks rf (f c) m :=
  ends_modifyConf_of fun _ h => ⟨congrArg f h.1, h.2⟩

end Scripts

end Lan80xx.Lan8770
