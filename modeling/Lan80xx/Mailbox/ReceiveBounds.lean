import Lan80xx.Mailbox.OtpChunks

/-!
# Mailbox: bounds

The length of a response comes from the MCU, and the response is stored before the length is checked. What the readers of
the response copy to their callers goes by that length too, checked or not.

- `copyLoop_eq`: the copy loop ends, and stores the words that follow the first;
- `fetch_inside_iff`: it stays in the response buffer unless a length above 1024 is announced;
- `receive_bounds_iff`: the readers copy what they were asked for, when the lengths of the responses agree with it.
-/

namespace Lan80xx.Mailbox

open ByteMem Fallible RegBus Journal

variable {H α β : Type}

/-! ## The copy loop -/

/-- The copy loop of `lan80xx_MB_ReadResponse` with its counters, for `n` rounds at most. -/
def copyLoop (host : Host H) (pktLen : BitVec 16) : Nat → BitVec 16 → BitVec 16 → Call H Unit
  | 0, _, _ => throw .hang
  | n + 1, counter, reg =>
    if counter < pktLen then do
      let val ← csrRd host (.mailbox reg)
      modifyConf fun c => { c with resp := storeWord c.resp counter.toNat val }
      copyLoop host pktLen n (counter + 4) (reg + 1)
    else pure ()

/-- One round of it, in `readRest`. -/
def wordRound (host : Host H) (k : Nat) : Call H Unit := do
  let val ← csrRd host (respReg (k + 1))
  modifyConf fun c => { c with resp := storeWord c.resp (4 * (k + 1)) val }

section CopyLoop

variable {host : Host H} {pktLen : BitVec 16}

/-- A length up to 0xFFFC is rounded up, and above it to zero. -/
theorem roundUp_toNat (len : BitVec 16) :
    (roundUp len).toNat = if len.toNat ≤ 65532 then (len.toNat + 3) / 4 * 4 else 0 := by
  have hlt := len.isLt
  have hmod : (len % 4).toNat = len.toNat % 4 := BitVec.toNat_umod
  by_cases h0 : len % 4 = 0
  · have hz : len.toNat % 4 = 0 := by
      rw [← hmod, h0]
      rfl
    rw [roundUp, if_neg (by simpa using h0), if_pos (by omega)]
    omega
  · have hz : len.toNat % 4 ≠ 0 := fun hcontra => h0 (BitVec.eq_of_toNat_eq (by simpa [hmod] using hcontra))
    have h4 : (4 - len % 4 : BitVec 16).toNat = (2 ^ 16 - len.toNat % 4 + 4) % 2 ^ 16 := by
      rw [BitVec.toNat_sub, hmod]
      rfl
    rw [roundUp, if_pos h0, BitVec.toNat_add, h4]
    split <;> omega

theorem counter_toNat {k : Nat} (h : 4 * k < 2 ^ 16) : (BitVec.ofNat 16 (4 * k)).toNat = 4 * k := by
  rw [BitVec.toNat_ofNat, Nat.mod_eq_of_lt h]

theorem copyLoop_from : ∀ (j k n : Nat), 4 * (k + 1 + j) = pktLen.toNat → j < n →
    copyLoop host pktLen n (BitVec.ofNat 16 (4 * (k + 1))) (0xD900 + BitVec.ofNat 16 (k + 1)) =
      forUpTo j fun i => wordRound host (k + i)
  | 0, k, n + 1, hk, _ => by
    have hlt := pktLen.isLt
    have hcount := @counter_toNat (k + 1) (by omega)
    rw [copyLoop, if_neg (by rw [BitVec.lt_def, hcount]; omega)]
    rfl
  | j + 1, k, n + 1, hk, hn => by
    have hlt := pktLen.isLt
    have hcount := @counter_toNat (k + 1) (by omega)
    have hnext : BitVec.ofNat 16 (4 * (k + 1)) + 4 = BitVec.ofNat 16 (4 * (k + 1 + 1)) := by
      rw [Nat.mul_succ 4 (k + 1), BitVec.ofNat_add]
      rfl
    have hreg : (0xD900 + BitVec.ofNat 16 (k + 1) + 1 : BitVec 16) = 0xD900 + BitVec.ofNat 16 (k + 1 + 1) := by
      rw [BitVec.ofNat_add (k + 1) 1, BitVec.add_assoc]
      rfl
    have hrest := copyLoop_from j (k + 1) n (by omega) (by omega)
    rw [forUpTo_succ_front, copyLoop, if_pos (by rw [BitVec.lt_def, hcount]; omega), hnext, hreg, hrest, hcount]
    simp only [Nat.add_zero, Nat.add_right_comm k 1, ← Nat.add_assoc, wordRound, bind_assoc]
    rfl

/-- The copy loop ends after at most 2^14 rounds, and is that of `readRest`. -/
theorem copyLoop_eq (len : BitVec 16) {n : Nat} (hn : 2 ^ 14 ≤ n) :
    copyLoop host (roundUp len) n 4 (0xD900 + 1) = readRest host ((roundUp len).toNat / 4 - 1) := by
  have hmod : (roundUp len).toNat % 4 = 0 := by
    rw [roundUp_toNat]
    split <;> omega
  have hlt := (roundUp len).isLt
  by_cases h0 : (roundUp len).toNat = 0
  · obtain ⟨n, rfl⟩ : ∃ n', n = n' + 1 := ⟨n - 1, by omega⟩
    rw [copyLoop, if_neg (by rw [BitVec.lt_def, h0]; omega), h0]
    rfl
  · have hloop := @copyLoop_from _ host (roundUp len) ((roundUp len).toNat / 4 - 1) 0 n (by omega) (by omega)
    simp only [Nat.zero_add] at hloop
    exact hloop

end CopyLoop

/-! ## Where the response is stored -/

/-- The length in the first word of a response. -/
def announced (val : BitVec 32) : BitVec 16 := half (byteOf val 2) (byteOf val 3)

/-- The device after the reads of the words 1 to `n` of the response. -/
def afterReads (host : Host H) : Nat → H → H
  | 0, h => h
  | n + 1, h => (host.bus.rd (respReg (n + 1)) (afterReads host n h)).2

/-- The words 1 to `n` of the response can be read, one after the other. -/
def Readable (host : Host H) (n : Nat) (h : H) : Prop :=
  ∀ k < n, ∃ v, (host.bus.rd (respReg (k + 1)) (afterReads host k h)).1 = .ok v

/-- The MCU presents a response that is longer than the buffer. -/
def Oversized (host : Host H) (h : H) : Prop :=
  ∃ v, (host.bus.rd (respReg 0) h).1 = .ok v ∧ maxPktLen < (announced v).toNat ∧ (announced v).toNat ≤ 65532 ∧
    Readable host 256 (host.bus.rd (respReg 0) h).2

/-- Nothing behind the buffer is changed. -/
def inside : Frame (Dev McuConf H) where
  rel s s' := ∀ i, maxPktLen ≤ i → s'.conf.resp i = s.conf.resp i
  refl _ _ _ := rfl
  trans h₁ h₂ i hi := (h₂ i hi).trans (h₁ i hi)

/-- The first byte behind the buffer is not changed. -/
def keepsNext : Frame (Dev McuConf H) where
  rel s s' := s'.conf.resp maxPktLen = s.conf.resp maxPktLen
  refl _ := rfl
  trans h₁ h₂ := h₂.trans h₁

section Stores

variable {host : Host H} {s : Dev McuConf H} {n : Nat}

/-- Calls that leave the driver's data alone stay inside. -/
theorem inside_of_conf {s s' : Dev McuConf H} (h : s'.conf = s.conf) : inside.rel s s' := fun i _ => by rw [h]

theorem inside_csrRd (r : McuReg) : Within inside (csrRd host r) :=
  (within_read (W := Set.univ) host.bus McuRc.access r).mono fun _ _ h => inside_of_conf h.1

theorem inside_csrWr (r : McuReg) (v : BitVec 32) : Within inside (csrWr host r v) :=
  (within_write (W := Set.univ) host.bus McuRc.access v fun _ _ => Set.mem_univ _).mono fun _ _ h => inside_of_conf h.1

theorem inside_store {off : Nat} (h : off + 4 ≤ maxPktLen) (v : BitVec 32) :
    Within inside (modifyConf fun c => { c with resp := storeWord c.resp off v } : Call H PUnit) :=
  fun s i hi => storeWord_of_ge (by omega)

/-- The first 255 rounds store inside the buffer. -/
theorem inside_readRest (hn : n ≤ 255) : Within inside (readRest host n) :=
  Within.forUpTo n fun k hk => (inside_csrRd _).bind fun v => inside_store (by rw [maxPktLen_eq]; omega) v

/-- The rounds from 256 on leave the first byte behind the buffer alone. -/
theorem keepsNext_wordRound {k : Nat} (hk : 256 ≤ k) : Within keepsNext (wordRound host k) := by
  refine Within.bind ?_ fun v s => ?_
  · exact (within_read (W := Set.univ) host.bus McuRc.access _).mono fun _ _ h => by
      show _ = _
      rw [h.1]
  · exact storeWord_of_lt (by rw [maxPktLen_eq]; omega)

/-- The rest of the response, as long as its words can be read. -/
theorem readRest_readable : ∀ n, Readable host n s.hw →
    ∃ m, readRest host n s = .ok () ⟨{ s.conf with resp := m }, afterReads host n s.hw⟩ ∧
      ∀ k < n, ∀ v, (host.bus.rd (respReg (k + 1)) (afterReads host k s.hw)).1 = .ok v → m (4 * (k + 1)) = byteOf v 0
  | 0, _ => ⟨s.conf.resp, rfl, fun k hk => absurd hk (Nat.not_lt_zero k)⟩
  | n + 1, h => by
    obtain ⟨m, hrun, hm⟩ := readRest_readable n fun k hk => h k (by omega)
    obtain ⟨v, hv⟩ := h n (Nat.lt_succ_self n)
    have hread : csrRd host (respReg (n + 1)) ⟨{ s.conf with resp := m }, afterReads host n s.hw⟩ =
        .ok v ⟨{ s.conf with resp := m }, afterReads host (n + 1) s.hw⟩ := read_eq_ok _ _ hv
    refine ⟨storeWord m (4 * (n + 1)) v, ?_, fun k hk w hw => ?_⟩
    · have hstep : readRest host (n + 1) s = (readRest host n >>= fun _ => wordRound host n) s := rfl
      rw [hstep, bind_of_ok hrun, wordRound, bind_of_ok hread]
      rfl
    · rcases Nat.lt_succ_iff_lt_or_eq.mp hk with hlt | rfl
      · rw [storeWord_of_lt (by omega)]
        exact hm k hlt w hw
      · rw [hv] at hw
        cases hw
        exact storeWord_at (k := 0) (by decide)

/-- The first word that cannot be read. -/
theorem exists_unreadable {h : H} : ∀ n, ¬Readable host n h →
    ∃ k < n, Readable host k h ∧ ∃ e, (host.bus.rd (respReg (k + 1)) (afterReads host k h)).1 = .error e
  | 0, hn => absurd (fun k hk => absurd hk (Nat.not_lt_zero k)) hn
  | n + 1, hn => by
    by_cases hread : Readable host n h
    · cases hv : (host.bus.rd (respReg (n + 1)) (afterReads host n h)).1 with
      | error e => exact ⟨n, Nat.lt_succ_self n, hread, e, hv⟩
      | ok v =>
        refine absurd (fun k hk => ?_) hn
        rcases Nat.lt_succ_iff_lt_or_eq.mp hk with hlt | rfl
        · exact hread k hlt
        · exact ⟨v, hv⟩
    · obtain ⟨k, hk, hrest⟩ := exists_unreadable n hread
      exact ⟨k, by omega, hrest⟩

/-- The loop ends at a word that cannot be read, with what the rounds before it have stored. -/
theorem readRest_unreadable {k : Nat} (hk : k < n) (hread : Readable host k s.hw) {e : Int}
    (he : (host.bus.rd (respReg (k + 1)) (afterReads host k s.hw)).1 = .error e) :
    readRest host n s = .error (.access e) ⟨(final (readRest host k) s).conf, afterReads host (k + 1) s.hw⟩ := by
  obtain ⟨m, hrun, -⟩ := readRest_readable k hread
  have hstep : readRest host (k + 1) s = (readRest host k >>= fun _ => wordRound host k) s := rfl
  have hfail : readRest host (k + 1) s =
      .error (.access e) ⟨(final (readRest host k) s).conf, afterReads host (k + 1) s.hw⟩ := by
    rw [hstep, bind_of_ok hrun, final, hrun]
    exact bind_of_error (read_eq_error _ _ he)
  obtain ⟨j, rfl⟩ := Nat.exists_eq_add_of_lt hk
  rw [Nat.add_right_comm]
  exact forUpTo_error hfail j

/-- It does not run forever. -/
theorem readRest_ne_hang {t : Dev McuConf H} : readRest host n s ≠ .error .hang t := by
  intro h
  by_cases hread : Readable host n s.hw
  · obtain ⟨m, hrun, -⟩ := readRest_readable n hread
    rw [hrun] at h
    cases h
  · obtain ⟨k, hk, hreadk, e, he⟩ := exists_unreadable n hread
    rw [readRest_unreadable hk hreadk he] at h
    cases h

/-- A response that cannot be read up to the end of the buffer does not leave it. -/
theorem inside_of_unreadable (h : ¬Readable host 256 s.hw) : inside.rel s (final (readRest host n) s) := by
  obtain ⟨k, hk, hread, e, he⟩ := exists_unreadable 256 h
  by_cases hn : n ≤ k
  · exact inside_readRest (by omega) s
  · rw [final, readRest_unreadable (Nat.not_le.mp hn) hread he]
    exact inside_readRest (n := k) (by omega) s

/-- Otherwise the word behind the buffer is stored. -/
theorem readRest_next {c : McuConf} {h : H} (hread : Readable host 256 h) {v : BitVec 32}
    (hv : (host.bus.rd (respReg 256) (afterReads host 255 h)).1 = .ok v) (hn : 256 ≤ n) :
    (final (readRest host n) ⟨c, h⟩).conf.resp maxPktLen = byteOf v 0 := by
  have hlater (k : Nat) (hk : 256 ≤ k) (j : Nat) :
      keepsNext.rel (final (readRest host k) ⟨c, h⟩) (final (readRest host (k + j)) ⟨c, h⟩) :=
    forUpTo_later j fun i hi => keepsNext_wordRound (by omega)
  obtain ⟨m, hrun, hm⟩ := readRest_readable (s := ⟨c, h⟩) 256 hread
  obtain ⟨j, rfl⟩ := Nat.exists_eq_add_of_le hn
  have hkeep := hlater 256 (Nat.le_refl _) j
  rw [final, hrun] at hkeep
  exact hkeep.trans (hm 255 (by decide) v hv)

theorem keepsNext_csrWr (r : McuReg) (v : BitVec 32) : Within keepsNext (csrWr host r v) :=
  (inside_csrWr r v).mono fun _ _ h => h maxPktLen (Nat.le_refl _)

/-- The first word is read. -/
theorem fetch_eq {c : McuConf} {h : H} {v : BitVec 32} (hv : (host.bus.rd (respReg 0) h).1 = .ok v)
    (h0 : announced v ≠ 0) : final (fetchResponse host) ⟨c, h⟩ =
      final (readRest host ((roundUp (announced v)).toNat / 4 - 1) >>= fun _ => writeFlag host 0x02000000 >>= fun _ =>
        pure (announced v)) ⟨{ c with resp := storeWord c.resp 0 v }, (host.bus.rd (respReg 0) h).2⟩ := by
  have hread : csrRd host (respReg 0) ⟨c, h⟩ = .ok v ⟨c, (host.bus.rd (respReg 0) h).2⟩ := read_eq_ok _ _ hv
  unfold final fetchResponse
  rw [bind_of_ok hread]
  have hne : half (byteOf v 2) (byteOf v 3) ≠ 0 := h0
  simp only [if_neg hne]
  rfl

/-- **The response stays in the buffer** exactly when no longer one is presented. -/
theorem fetch_inside_iff (h : H) : (∀ c, inside.rel ⟨c, h⟩ (final (fetchResponse host) ⟨c, h⟩)) ↔ ¬Oversized host h := by
  cases hv : (host.bus.rd (respReg 0) h).1 with
  | error e =>
    refine iff_of_true (fun c => ?_) fun ⟨v, hok, _⟩ => by rw [hv] at hok; cases hok
    have hread : csrRd host (respReg 0) ⟨c, h⟩ = .error (.access e) ⟨c, (host.bus.rd (respReg 0) h).2⟩ :=
      read_eq_error _ _ hv
    rw [final, fetchResponse, bind_of_error hread]
    exact inside_of_conf rfl
  | ok v =>
    by_cases h0 : announced v = 0
    · refine iff_of_true (fun c => ?_) ?_
      · have hread : csrRd host (respReg 0) ⟨c, h⟩ = .ok v ⟨c, (host.bus.rd (respReg 0) h).2⟩ := read_eq_ok _ _ hv
        have hrest : Within inside (attempt (writeFlag host 0x02000000) >>= fun _ =>
            (throw .invalidPktLen : Call H (BitVec 16))) :=
          (inside_csrWr _ _).attempt.bind fun _ => Within.throw _
        have hz : half (byteOf v 2) (byteOf v 3) = 0 := h0
        rw [final, fetchResponse, bind_of_ok hread]
        simp only [if_pos hz]
        exact hrest _
      · rintro ⟨w, hw, hbig, -⟩
        cases hv.symm.trans hw
        rw [h0] at hbig
        exact absurd hbig (by decide)
    · have hwrite : ∀ _ : Unit, Within inside (writeFlag host 0x02000000 >>= fun _ =>
          (pure (announced v) : Call H (BitVec 16))) := fun _ => (inside_csrWr _ _).bind fun _ => Within.pure _
      have hkeep (s : Dev McuConf H) (n : Nat) : keepsNext.rel (final (readRest host n) s)
          (final (readRest host n >>= fun _ => writeFlag host 0x02000000 >>= fun _ =>
            (pure (announced v) : Call H (BitVec 16))) s) :=
        Within.later fun _ => (keepsNext_csrWr _ _).bind fun _ => Within.pure _
      have hround := roundUp_toNat (announced v)
      constructor
      · rintro hin ⟨w, hw, hbig, hlen, hread⟩
        cases hv.symm.trans hw
        rw [maxPktLen_eq] at hbig
        rw [if_pos hlen] at hround
        obtain ⟨w, hw⟩ := hread 255 (by decide)
        have hne : byteOf w 0 + 1 ≠ byteOf w 0 := fun hcontra => by
          have hnat := congrArg BitVec.toNat hcontra
          rw [BitVec.toNat_add] at hnat
          simp at hnat
          omega
        refine hne ?_
        have hsame := hin { resp := fun _ => byteOf w 0 + 1 } maxPktLen (Nat.le_refl _)
        rw [fetch_eq hv h0] at hsame
        exact hsame.symm.trans ((hkeep _ _).trans (readRest_next hread hw (by omega)))
      · intro hfit c
        rw [fetch_eq hv h0]
        refine inside.trans (b := ⟨{ c with resp := storeWord c.resp 0 v }, (host.bus.rd (respReg 0) h).2⟩) ?_ ?_
        · exact fun i hi => storeWord_of_ge (by rw [maxPktLen_eq] at hi; omega)
        · refine inside.trans ?_ (Within.later hwrite)
          by_cases hread : Readable host 256 (host.bus.rd (respReg 0) h).2
          · refine inside_readRest ?_ _
            have hsmall : ¬(maxPktLen < (announced v).toNat ∧ (announced v).toNat ≤ 65532) := fun hbig =>
              hfit ⟨v, hv, hbig.1, hbig.2, hread⟩
            rw [maxPktLen_eq] at hsmall
            split at hround <;> omega
          · exact inside_of_unreadable hread

end Stores

/-! ## The whole call -/

/-- The result of a call, with other data of the driver. -/
def relabel (c : McuConf) (r : EStateM.Result McuRc (Dev McuConf H) α) : EStateM.Result McuRc (Dev McuConf H) α :=
  match r with
  | .ok a t => .ok a ⟨c, t.hw⟩
  | .error e t => .error e ⟨c, t.hw⟩

/-- A call that neither looks at the driver's data nor changes it. -/
def ConfFree (x : Call H α) : Prop := ∀ c h, x ⟨c, h⟩ = relabel c (x ⟨{}, h⟩)

section ConfFree

variable {host : Host H} {x : Call H α} {f : α → Call H β}

theorem ConfFree.pure (a : α) : ConfFree (pure a : Call H α) := fun _ _ => rfl

theorem ConfFree.bind (hx : ConfFree x) (hf : ∀ a, ConfFree (f a)) : ConfFree (x >>= f) := by
  intro c h
  have hsame := hx {} h
  have hother := hx c h
  cases hr : x ⟨{}, h⟩ with
  | ok a t =>
    rw [hr] at hsame hother
    have ht : t = ⟨{}, t.hw⟩ := by injection hsame
    rw [bind_of_ok hother, bind_of_ok hr, ht]
    exact hf a c t.hw
  | error e t =>
    rw [hr] at hother
    rw [bind_of_error hother, bind_of_error hr]
    rfl

theorem ConfFree.ite {b : Prop} [Decidable b] {y : Call H α} (hx : ConfFree x) (hy : ConfFree y) :
    ConfFree (if b then x else y) := by
  split
  · exact hx
  · exact hy

theorem confFree_csrRd (r : McuReg) : ConfFree (csrRd host r) := by
  intro c h
  cases hr : (host.bus.rd r h).1 with
  | error e =>
    have hread (c : McuConf) : csrRd host r ⟨c, h⟩ = .error (.access e) ⟨c, (host.bus.rd r h).2⟩ := read_eq_error _ _ hr
    rw [hread, hread]
    rfl
  | ok v =>
    have hread (c : McuConf) : csrRd host r ⟨c, h⟩ = .ok v ⟨c, (host.bus.rd r h).2⟩ := read_eq_ok _ _ hr
    rw [hread, hread]
    rfl

theorem confFree_gpioRead : ConfFree (gpioRead host) := by
  intro c h
  cases hg : host.gpioRead with
  | none => simp only [gpioRead, hg, relabel]
  | some gpio => simp only [gpioRead, hg, relabel]

/-- The wait for the response does not depend on what is in the buffer. -/
theorem confFree_waitHostIntr : ∀ n, ConfFree (waitHostIntr host n)
  | 0 => ConfFree.pure _
  | n + 1 => by
    refine confFree_gpioRead.bind fun pin => ConfFree.bind ?_ fun val => ?_
    · exact ConfFree.ite (confFree_csrRd _) (ConfFree.pure _)
    · exact ConfFree.ite (ConfFree.pure _) (ConfFree.bind (fun _ _ => rfl) fun _ => confFree_waitHostIntr n)

end ConfFree

/-- Whatever is in the buffer and behind it, a call of `lan80xx_MB_ReadResponse` stores inside. -/
def StaysInside (host : Host H) (timeout : Nat) (h : H) : Prop :=
  ∀ c, inside.rel ⟨c, h⟩ (final (readResponse host timeout) ⟨c, h⟩)

/-- The response that the MCU presents to the call does not fit into the buffer. -/
def Overruns (host : Host H) (timeout : Nat) (h : H) : Prop :=
  host.baseDev = true ∧ ∃ t, waitHostIntr host (timeout + 1) ⟨{}, h⟩ = .ok true t ∧ Oversized host t.hw

theorem staysInside_iff (host : Host H) (timeout : Nat) (h : H) : StaysInside host timeout h ↔ ¬Overruns host timeout h := by
  by_cases hbase : host.baseDev = false
  · refine iff_of_true (fun c => ?_) fun hover => by rw [hover.1] at hbase; cases hbase
    have hguard : readResponse host timeout ⟨c, h⟩ = .error .error ⟨c, h⟩ := by
      unfold readResponse failIf Fallible.when
      rw [if_pos hbase]
      rfl
    rw [final, hguard]
    exact inside.refl _
  · have hwait := @confFree_waitHostIntr H host (timeout + 1)
    have hread (c : McuConf) : final (readResponse host timeout) ⟨c, h⟩ = final (waitHostIntr host (timeout + 1) >>=
        fun ready => if ready = false then csrRd host flagReg >>= fun _ => csrRd host hostIntrMaskReg >>= fun _ =>
          csrRd host mcuIntrMaskReg >>= fun _ => attempt (writeFlag host 0x01000000) >>= fun _ => throw .respTimeout
        else fetchResponse host) ⟨c, h⟩ := by
      rw [readResponse, failIf_bind_of_not hbase]
    cases hr : waitHostIntr host (timeout + 1) ⟨{}, h⟩ with
    | error e t =>
      have hgone : ¬Overruns host timeout h := by
        rintro ⟨-, t', ht', -⟩
        rw [hr] at ht'
        cases ht'
      refine iff_of_true (fun c => ?_) hgone
      have hc := hwait c h
      rw [hr] at hc
      rw [hread, final, bind_of_error hc]
      exact inside_of_conf rfl
    | ok ready t =>
      cases ready with
      | false =>
        have hgone : ¬Overruns host timeout h := by
          rintro ⟨-, t', ht', -⟩
          rw [hr] at ht'
          cases ht'
        refine iff_of_true (fun c => ?_) hgone
        have hc := hwait c h
        rw [hr] at hc
        rw [hread, final, bind_of_ok hc]
        refine ((inside_csrRd _).bind fun _ => (inside_csrRd _).bind fun _ => (inside_csrRd _).bind fun _ =>
          (inside_csrWr _ _).attempt.bind fun _ => Within.throw _ : Within inside _) ⟨c, t.hw⟩
      | true =>
        have hover : Overruns host timeout h ↔ Oversized host t.hw := by
          constructor
          · rintro ⟨_, t', ht', ho⟩
            cases hr.symm.trans ht'
            exact ho
          · exact fun ho => ⟨by simpa using hbase, t, hr, ho⟩
        rw [hover, ← fetch_inside_iff]
        refine forall_congr' fun c => ?_
        have hc := hwait c h
        rw [hr] at hc
        rw [hread, final, bind_of_ok hc]
        exact Iff.rfl

/-! ## The readers -/

/-- The readers of the response. `pu16Len` is what the caller has in the length that a configuration read reports. -/
inductive Reader
  | memory (addr : BitVec 32) (len : BitVec 16)
  | otpCfg (recIdx : Byte) (pu16Len : BitVec 16)
  | otp (offset len : BitVec 16)

/-- The one copy of a reader that reads one response. -/
def oneCopy (o : Option (List Byte)) : List Copy := (o.map fun data => (0, data)).toList

namespace Reader

/-- The call: the copies to the caller, and the number of bytes that it was asked for or reports. -/
def call (host : Host H) (r : Reader) : Call H (List Copy × Nat) :=
  match r with
  | memory addr len => memoryRead host addr len >>= fun o => pure (oneCopy o, len.toNat)
  | otpCfg recIdx pu16Len => otpCfgRead host recIdx >>= fun o =>
      pure (oneCopy o, (o.map List.length).getD pu16Len.toNat)
  | otp offset len => otpReadPriv host offset len (len.toNat + 1) >>= fun done => pure (done.1, len.toNat)

/-- The answer to a request has a length that agrees with it; a response that fails the check is one that the call does
not return from, unless nothing is asked for or reported. -/
def Suits (r : Reader) (e : Exchange) : Prop :=
  ∀ m, e.response = .ok m →
    match r with
    | memory _ len => (Genuine e.packetId m → (pktLenOf m).toNat = len.toNat + 6) ∧
        (¬Valid m → len.toNat = 0 ∨ Dumped m)
    | otpCfg _ pu16Len => (Genuine e.packetId m → 6 ≤ (pktLenOf m).toNat) ∧ (¬Valid m → pu16Len.toNat = 0 ∨ Dumped m)
    | otp _ _ => ¬Valid m → Dumped m

end Reader

/-- What was copied when a reader returns the code of success: as many bytes as it was asked for or reports, none behind
them, and each copy is from the payload of a response. -/
structure CopiesRight (out : Except McuRc (List Copy × Nat)) (new : List Exchange) : Prop where
  exact : ∀ copies n, out = .ok (copies, n) → (copies.map fun c => c.2.length).sum = n
  asked : ∀ copies n, out = .ok (copies, n) → ∀ c ∈ copies, c.1 + c.2.length ≤ n
  present : ∀ copies n, out = .ok (copies, n) → ∀ c ∈ copies, ∃ e ∈ new, ∃ m, e.response = .ok m ∧
    c.2 = payload m c.2.length ∧ c.2.length + 6 ≤ (pktLenOf m).toNat

section Readers

variable {host : Host H} {new : List Exchange}

theorem copiesRight_error (rc : McuRc) : CopiesRight (.error rc) new where
  exact _ _ h := by cases h
  asked _ _ h := by cases h
  present _ _ h := by cases h

/-- The length of the payload, unless the packet is too short to have one. -/
theorem dataLenOf_eq (len : BitVec 16) : dataLenOf len = if 6 ≤ len.toNat then len.toNat - 6 else 65530 + len.toNat := by
  have hlt := len.isLt
  have h4 : (BitVec.ofNat 16 maxPktHeaderLen).toNat = 4 := rfl
  have h2 : (BitVec.ofNat 16 maxCrcLen).toNat = 2 := rfl
  rw [dataLenOf, BitVec.toNat_sub, BitVec.toNat_sub, h4, h2]
  split <;> omega

/-- One copy is right when its length is the number asked for, and the payload is as long. -/
theorem copiesRight_one_iff {e : Exchange} {m : Mem} {k n : Nat} (hm : e.response = .ok m) :
    CopiesRight (.ok ([(0, payload m k)], n)) [e] ↔ k = n ∧ k + 6 ≤ (pktLenOf m).toNat := by
  constructor
  · intro h
    have hexact := h.exact _ _ rfl
    obtain ⟨e', he', m', hm', -, hlen⟩ := h.present _ _ rfl (0, payload m k) (List.mem_singleton.mpr rfl)
    rw [List.mem_singleton.mp he', hm] at hm'
    cases hm'
    simp only [payload_length, List.map_cons, List.map_nil, List.sum_cons, List.sum_nil] at hexact hlen
    exact ⟨hexact, hlen⟩
  · rintro ⟨rfl, hlen⟩
    refine ⟨fun copies n h => ?_, fun copies n h c hc => ?_, fun copies n h c hc => ?_⟩
    all_goals cases h
    · simp [payload_length]
    · rw [List.mem_singleton.mp hc, payload_length, Nat.zero_add]
    · rw [List.mem_singleton.mp hc, payload_length]
      exact ⟨e, List.mem_singleton.mpr rfl, m, hm, rfl, hlen⟩

/-- A call that has copied nothing is right when nothing was asked for. -/
theorem copiesRight_nil_iff {n : Nat} : CopiesRight (.ok ([], n)) new ↔ n = 0 := by
  constructor
  · exact fun h => (h.exact _ _ rfl).symm
  · rintro rfl
    refine ⟨fun copies n h => ?_, fun copies n h c hc => ?_, fun copies n h c hc => ?_⟩
    all_goals cases h
    · rfl
    · cases hc
    · cases hc

/-- What `lan80xx_otp_cfg_read_priv` makes of its answer. -/
def decodeCfg (_ : BitVec 16) (m : Mem) : Except McuRc (List Byte) :=
  if dataLenOf (pktLenOf m) = 0 then .error .invalidPktLen else .ok (payload m (dataLenOf (pktLenOf m)))

/-- A reader of one response. -/
theorem copiesRight_command_iff {packetId reserved : Byte} {cmdData : List Byte}
    {decode : BitVec 16 → Mem → Except McuRc (List Byte)} {r : Except McuRc (Option (List Byte))}
    (count : Option (List Byte) → Nat) (P : Mem → Prop)
    (hdec : ∀ (e : Exchange) m l, e.response = .ok m →
      (CopiesRight ((decode l m).map fun data => (oneCopy (some data), count (some data))) [e] ↔ P m))
    (h : Exchanged packetId reserved cmdData decode r new) :
    CopiesRight (r.map fun o => (oneCopy o, count o)) new ↔ ∀ e ∈ new, ∀ m, e.response = .ok m →
      (Genuine e.packetId m → P m) ∧ (¬Valid m → count none = 0 ∨ Dumped m) := by
  obtain ⟨response, rfl, hr⟩ := h
  rw [List.forall_mem_singleton]
  cases response with
  | error rc =>
    rw [show r = .error rc from hr]
    exact iff_of_true (copiesRight_error rc) fun m hm => by cases hm
  | ok m =>
    obtain ⟨l, rfl⟩ := hr
    have hone (Q : Mem → Prop) : (∀ m', (Except.ok m : Except McuRc Mem) = .ok m' → Q m') ↔ Q m :=
      ⟨fun h => h m rfl, fun h m' hm' => by cases hm'; exact h⟩
    rw [hone]
    by_cases hv : Valid m
    · by_cases hid : m 0 = packetId + 0x80
      · have hmap : ((decode l m).map some).map (fun o => (oneCopy o, count o)) =
            (decode l m).map fun data => (oneCopy (some data), count (some data)) := by
          cases decode l m <;> rfl
        rw [interpret_genuine ⟨hv, hid⟩, hmap, hdec _ m l rfl]
        exact ⟨fun hP => ⟨fun _ => hP, fun hnv => absurd hv hnv⟩, fun hc => hc.1 ⟨hv, hid⟩⟩
      · have hright : (Genuine packetId m → P m) ∧ (¬Valid m → count none = 0 ∨ Dumped m) :=
          ⟨fun hg => absurd hg.2 hid, fun hnv => absurd hv hnv⟩
        rcases interpret_foreign decode l hv hid with ⟨-, rc, -, hint⟩ | ⟨-, hint⟩
        · rw [hint]
          exact iff_of_true (copiesRight_error _) hright
        · rw [hint]
          exact iff_of_true (copiesRight_error _) hright
    · obtain ⟨hslip, hstick⟩ := @interpret_of_not_valid _ packetId decode l m hv
      by_cases hdump : Dumped m
      · rw [hstick hdump]
        exact iff_of_true (copiesRight_error _) ⟨fun hg => absurd hg.1 hv, fun _ => Or.inr hdump⟩
      · rw [hslip hdump]
        refine copiesRight_nil_iff.trans ⟨fun hz => ⟨fun hg => absurd hg.1 hv, fun _ => Or.inl hz⟩, fun hc => ?_⟩
        exact (hc.2 hv).resolve_right hdump

/-- A response to a chunked read suits it unless it slips through. -/
theorem suits_otp_iff {offset len : BitVec 16} {e : Exchange} : (Reader.otp offset len).Suits e ↔ ¬e.Slipped := by
  constructor
  · rintro h ⟨m, hm, hv, hdump⟩
    exact hdump (h m hm hv)
  · exact fun h m hm hv => Classical.byContradiction fun hdump => h ⟨m, hm, hv, hdump⟩

/-- The run of a chunked read. -/
theorem copiesRight_run_iff {offset len : Nat} {r : Except McuRc (List Copy × Bool)}
    (h : ChunkRun readRounds len offset 0 [] r new) (ha : offset + len ≤ maxOtpSize) :
    CopiesRight (r.map fun done => (done.1, len)) new ↔ ∀ e ∈ new, ¬e.Slipped := by
  have hmax : maxOtpSize = 0x4000 := rfl
  have hcases := h.cases fun _ _ _ _ _ hack => readRounds_confirmed hack
  cases hr : r with
  | error rc =>
    refine iff_of_true (copiesRight_error rc) fun e he hslip => ?_
    rw [hr] at hcases
    rcases hcases with ⟨hall, -⟩ | ⟨-, b', hb⟩ | ⟨-, hnone, -⟩
    · exact hslip.not_tolerated (hall e he)
    · cases hb
    · exact (hnone e he).1 hslip
  | ok done =>
    obtain ⟨copies, complete⟩ := done
    obtain ⟨more, rfl, ⟨hi, hhi, hcomplete, ht⟩, -, hpresent⟩ := h.copied hr (by omega)
    have hsum : (copies.map fun c => c.2.length).sum = hi := by
      have hmap : (copies.map Copy.range).map Prod.snd = copies.map fun c => c.2.length := by simp [Copy.range]
      rw [← hmap, ← ht.sum, Nat.zero_add]
    cases complete with
    | true =>
      obtain rfl := hcomplete.mp rfl
      refine iff_of_true ⟨fun copies n hout => ?_, fun copies n hout c hc => ?_, fun copies n hout c hc => ?_⟩ ?_
      · cases hout
        exact hsum
      · cases hout
        exact (ht.bounds (List.mem_map_of_mem hc)).2.1
      · cases hout
        obtain ⟨e, he, m, ⟨hm, -, hlen⟩, hdata⟩ := hpresent c hc
        refine ⟨e, he, m, hm, hdata, ?_⟩
        have hbound : c.1 + c.2.length ≤ hi := (ht.bounds (List.mem_map_of_mem hc)).2.1
        rw [dataLenOf_eq] at hlen
        split at hlen <;> omega
      · intro e he hslip
        rcases hcases with ⟨hall, -⟩ | ⟨-, b', hb⟩ | ⟨-, -, hb⟩
        · exact hslip.not_tolerated (hall e he)
        · rw [hr] at hb
          cases hb
        · rw [hr] at hb
          cases hb
    | false =>
      have hne : hi ≠ len := fun heq => Bool.false_ne_true (hcomplete.mpr heq)
      refine iff_of_false (fun hc => hne (hsum.symm.trans (hc.exact _ _ rfl))) fun hall => ?_
      rcases hcases with ⟨-, ⟨b', hb⟩ | ⟨rc, hb, -⟩⟩ | ⟨⟨e, he, hslip⟩, -⟩ | ⟨-, -, hb⟩
      · rw [hr] at hb
        cases hb
      · rw [hr] at hb
        cases hb
      · exact hall e he hslip
      · rw [hr] at hb
        cases hb

/-- **A reader copies what it was asked for**, when the lengths of the responses agree with it. -/
theorem copiesRight_iff (r : Reader) (s : Dev McuConf H) :
    CopiesRight (outcome (r.call host) s) (added history s (final (r.call host) s)) ↔
      ∀ e ∈ added history s (final (r.call host) s), r.Suits e := by
  cases r with
  | memory addr len =>
    have hadds : Adds history ((Reader.memory addr len).call host) fun out new =>
        CopiesRight out new ↔ ∀ e ∈ new, (Reader.memory addr len).Suits e := by
      have hcall : Adds history (memoryRead host addr len) fun r new => (∃ rc, r = .error rc ∧ new = []) ∨
          Exchanged 0x06 reservedId (addrLen addr len) decodeAll r new :=
        Adds.failIf_bind (fun _ => Or.inl ⟨_, rfl, rfl⟩) fun _ => (adds_command _ _ _ _ _).weaken fun _ _ => Or.inr
      refine (hcall.map _).weaken ?_
      rintro out new ⟨r, ⟨rc, rfl, rfl⟩ | h, rfl⟩
      · exact iff_of_true (copiesRight_error rc) fun e he => absurd he List.not_mem_nil
      · refine copiesRight_command_iff (fun _ => len.toNat) (fun m => (pktLenOf m).toNat = len.toNat + 6)
          (fun e m l hm => ?_) h
        refine (copiesRight_one_iff hm).trans ?_
        have hlt := (pktLenOf m).isLt
        rw [dataLenOf_eq]
        split <;> omega
    exact hadds.added s
  | otpCfg recIdx pu16Len =>
    have hadds : Adds history ((Reader.otpCfg recIdx pu16Len).call host) fun out new =>
        CopiesRight out new ↔ ∀ e ∈ new, (Reader.otpCfg recIdx pu16Len).Suits e := by
      have hcall : Adds history (otpCfgRead host recIdx) fun r new => (∃ rc, r = .error rc ∧ new = []) ∨
          Exchanged 0x08 reservedId [recIdx] decodeCfg r new :=
        Adds.failIf_bind (fun _ => Or.inl ⟨_, rfl, rfl⟩) fun _ => (adds_command _ _ _ _ _).weaken fun _ _ => Or.inr
      refine (hcall.map _).weaken ?_
      rintro out new ⟨r, ⟨rc, rfl, rfl⟩ | h, rfl⟩
      · exact iff_of_true (copiesRight_error rc) fun e he => absurd he List.not_mem_nil
      · refine copiesRight_command_iff (fun o => (o.map List.length).getD pu16Len.toNat)
          (fun m => 6 ≤ (pktLenOf m).toNat) (fun e m l hm => ?_) h
        have hlt := (pktLenOf m).isLt
        have hlen := dataLenOf_eq (pktLenOf m)
        unfold decodeCfg
        split
        · next h0 =>
          refine iff_of_true (copiesRight_error _) ?_
          split at hlen <;> omega
        · refine (copiesRight_one_iff hm).trans ?_
          rw [Option.map_some, Option.getD_some, payload_length]
          split at hlen <;> omega
    exact hadds.added s
  | otp offset len =>
    have hadds : Adds history ((Reader.otp offset len).call host) fun out new =>
        CopiesRight out new ↔ ∀ e ∈ new, (Reader.otp offset len).Suits e := by
      by_cases hbad : len.toNat = 0 ∨ maxOtpSize < len.toNat ∨ maxOtpSize < offset.toNat + len.toNat
      · have hfail : Adds history (otpReadPriv host offset len (len.toNat + 1)) fun r new =>
            ∃ rc, r = .error rc ∧ new = [] := Adds.failIf_bind (fun _ => ⟨_, rfl, rfl⟩) fun hgood => absurd hbad hgood
        refine (hfail.map _).weaken ?_
        rintro out new ⟨r, ⟨rc, rfl, rfl⟩, rfl⟩
        exact iff_of_true (copiesRight_error rc) fun e he => absurd he List.not_mem_nil
      · have hfit : offset.toNat + len.toNat ≤ maxOtpSize := by omega
        refine ((adds_otpReadPriv (Nat.lt_succ_self _) (by omega) hfit).map _).weaken ?_
        rintro out new ⟨r, hrun, rfl⟩
        refine (copiesRight_run_iff hrun hfit).trans (forall₂_congr fun e _ => suits_otp_iff.symm)
    exact hadds.added s

end Readers

/-! ## Bounds -/

/-- The copy loop ends, the response stays in its buffer, and the reader has copied what it was asked for. -/
structure ReceiveRight (host : Host H) (timeout : Nat) (r : Reader) (s : Dev McuConf H) : Prop where
  ends : ∀ len n, 2 ^ 14 ≤ n → ∀ t t', copyLoop host (roundUp len) n 4 (0xD900 + 1) t ≠ .error .hang t'
  inside : StaysInside host timeout s.hw
  copies : CopiesRight (outcome (r.call host) s) (added history s (final (r.call host) s))

/-- **A response is received within its bounds** exactly when it fits into the buffer and its length suits the reader. -/
theorem receive_bounds_iff (host : Host H) (timeout : Nat) (r : Reader) (s : Dev McuConf H) :
    ReceiveRight host timeout r s ↔ ¬Overruns host timeout s.hw ∧
      ∀ e ∈ added history s (final (r.call host) s), r.Suits e := by
  constructor
  · exact fun h => ⟨(staysInside_iff host timeout s.hw).mp h.inside, (copiesRight_iff r s).mp h.copies⟩
  · rintro ⟨hin, hsuits⟩
    refine ⟨fun len n hn t t' hloop => ?_, (staysInside_iff host timeout s.hw).mpr hin, (copiesRight_iff r s).mpr hsuits⟩
    rw [copyLoop_eq len hn] at hloop
    exact readRest_ne_hang hloop

/-- A board whose MCU presents the response `w`, whatever was asked. -/
def presentingBoard (w : BitVec 32) : Host Unit where
  bus :=
    { rd := fun r h => (.ok (if r = flagReg then 2 else if r = respReg 0 then w else 0), h)
      wr := fun _ _ h => (.ok (), h)
      drift := fun h h' => h' = h }
  gpioRead := some fun _ => 1
  msleep := id
  patience := 1

/-- A response of 1028 bytes overruns the buffer. -/
theorem overruns_presentingBoard : Overruns (presentingBoard 0x04040086) intrTimeout () :=
  ⟨rfl, ⟨{}, ()⟩, rfl, 0x04040086, rfl, by decide, by decide, fun k _ => ⟨_, rfl⟩⟩

theorem not_receive_bounds : ¬∀ (host : Host Unit) (timeout : Nat) (r : Reader) (s : Dev McuConf Unit),
    ReceiveRight host timeout r s := fun h =>
  (staysInside_iff (presentingBoard 0x04040086) intrTimeout ()).mp
    (h (presentingBoard 0x04040086) intrTimeout (.memory 0 4) ⟨{}, ()⟩).inside overruns_presentingBoard

end Lan80xx.Mailbox
