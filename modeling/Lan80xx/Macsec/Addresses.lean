import Lan80xx.Macsec.Match

/-!
# MACsec: where the page 0 entries lie

In page 0 the `base | (index * size)` of the register macros is a plain sum, so that every entry has an interval of its
own: transform records below `0x800`, TCAM words up to `0xC00`, policies, CAM keys, map entries and flow words above.
The macros of page 1 give an address from `0x4000` on, but not one of its own for every entry. `RecordPlace` and
`TablePlace` say where the entries lie; a record, slot or channel on page 0 shares no bit with any other
(`RecordPlace.unique`, `TablePlace.unique`).
-/

namespace Lan80xx.Macsec

/-! ## Sums -/

theorem mmdId_inj {d d' : Direction} (h : mmdId d = mmdId d') : d = d' := by
  cases d <;> cases d' <;> first | rfl | exact absurd h (by decide)

/-- `base | (index * size)` is a sum where base, index and offset use different bits. -/
theorem or_eq_add {o r : Nat} (base size a k b : Nat) (hsize : size = 2 ^ a) (hbase : base = 2 ^ (a + k) * b)
    (ho : o < size) (hr : r < 2 ^ k) : (base + o) ||| (r * size) = base + size * r + o := by
  subst hsize hbase
  have hoff : ∀ n, 2 ^ a * n + o = n <<< a ||| o := fun n => by
    rw [Nat.two_pow_add_eq_or_of_lt ho, Nat.shiftLeft_eq, Nat.mul_comm]
  have hindex : 2 ^ k * b + r = 2 ^ k * b ||| r := Nat.two_pow_add_eq_or_of_lt hr b
  calc (2 ^ (a + k) * b + o) ||| (r * 2 ^ a)
      = ((2 ^ k * b) <<< a ||| o) ||| r <<< a := by rw [Nat.pow_add, Nat.mul_assoc, hoff, Nat.shiftLeft_eq r]
    _ = (2 ^ k * b ||| r) <<< a ||| o := by rw [Nat.or_assoc, Nat.or_comm o, ← Nat.or_assoc, Nat.shiftLeft_or_distrib]
    _ = 2 ^ (a + k) * b + 2 ^ a * r + o := by
      rw [← hindex, ← hoff, Nat.mul_add, ← Nat.mul_assoc, ← Nat.pow_add]

/-- The truncated `or` is at least its truncated right operand. -/
theorem mod_le_or_mod (x y n : Nat) : y % 2 ^ n ≤ (x ||| y) % 2 ^ n := by
  rw [Nat.or_mod_two_pow]
  exact Nat.right_le_or

/-- A difference that wraps around, truncated. -/
theorem u32Sub_mod {k m : Nat} (hk : k < m) (hm : m < 2 ^ 16) : u32Sub k m % 2 ^ 16 = k + 2 ^ 16 - m := by
  unfold u32Sub
  omega

theorem bit_getLsbD {o b : Nat} (h : (bit o).getLsbD b = true) : b = o := by
  simp [bit] at h
  omega

theorem xform_or {r i : Nat} (hr : r < 64) (hi : i < 24) : ((0x0000 + i) ||| (r * 32)) % 2 ^ 16 = 32 * r + i := by
  rw [or_eq_add 0x0000 32 5 6 0 rfl rfl (by omega) hr]
  omega

theorem tcam_or {r o : Nat} (hr : r < 128) (ho : o < 14) : ((0x800 + o) ||| (r * 16)) % 2 ^ 16 = 0x800 + 16 * r + o := by
  rw [or_eq_add 0x800 16 4 7 1 rfl rfl (by omega) hr]
  omega

theorem policy_or {r : Nat} (hr : r < 64) : (0xC00 ||| (r * 1)) % 2 ^ 16 = 0xC00 + r := by
  have h : (0xC00 + 0) ||| (r * 1) = 0xC00 + 1 * r + 0 := or_eq_add 0xC00 1 0 6 48 rfl rfl Nat.zero_lt_one hr
  rw [Nat.add_zero] at h
  omega

theorem map_or {k n : Nat} (hk : k < 32) (hn : n < 2) : ((0xE00 + n) ||| (k * 2)) % 2 ^ 16 = 0xE00 + 2 * k + n := by
  rw [or_eq_add 0xE00 2 1 5 56 rfl rfl hn hk]
  omega

theorem flow_or {k n : Nat} (hk : k < 32) (hn : n < 2) : ((0x1C00 + n) ||| (k * 2)) % 2 ^ 16 = 0x1C00 + 2 * k + n := by
  rw [or_eq_add 0x1C00 2 1 5 112 rfl rfl hn hk]
  omega

theorem cam_or {k n : Nat} (hk : k < 32) (hn : n < 3) : ((0xD00 + n) ||| (k * 4)) % 2 ^ 16 = 0xD00 + 4 * k + n := by
  rw [or_eq_add 0xD00 4 2 5 26 rfl rfl (by omega) hk]
  omega

theorem xform_page1 {r i : Nat} (hr : r < 128) (hi : i < 24) :
    ((0x4000 + i) ||| (r * 32)) % 2 ^ 16 = 0x4000 + 32 * r + i := by
  rw [or_eq_add 0x4000 32 5 7 4 rfl rfl (by omega) hr]
  omega

theorem tcam_page1 {r : Nat} (hr : r < 128) (o : Nat) : 0xFC00 ≤ ((0x4800 + o) ||| u32Sub r (64 * 16)) % 2 ^ 16 := by
  have hle := mod_le_or_mod (0x4800 + o) (u32Sub r (64 * 16)) 16
  rw [u32Sub_mod (by omega) (by decide)] at hle
  omega

theorem policy_page1 {r : Nat} (hr : r < 128) (hr64 : 64 ≤ r) :
    (0x4C00 ||| u32Sub r (64 * 1)) % 2 ^ 16 = 0x4C00 + (r - 64) := by
  have hsub : u32Sub r (64 * 1) = (r - 64) * 1 := by
    unfold u32Sub
    omega
  have h : (0x4C00 + 0) ||| ((r - 64) * 1) = 0x4C00 + 1 * (r - 64) + 0 :=
    or_eq_add 0x4C00 1 0 6 304 rfl rfl Nat.zero_lt_one (by omega)
  rw [Nat.add_zero] at h
  rw [hsub]
  omega

theorem map_page1 {k : Nat} (hk : k < 64) (hk32 : 32 ≤ k) (n : Nat) :
    0xFFE0 ≤ ((0x4E00 + n) ||| u32Sub k (32 * 2)) % 2 ^ 16 := by
  have hle := mod_le_or_mod (0x4E00 + n) (u32Sub k (32 * 2)) 16
  rw [u32Sub_mod hk (by decide)] at hle
  omega

theorem flow_page1 {k : Nat} (hk : k < 64) (hk32 : 32 ≤ k) (n : Nat) :
    0xFFE0 ≤ ((0x5C00 + n) ||| u32Sub k (32 * 2)) % 2 ^ 16 ∧ 0xFFE0 ≤ ((0x1C00 + n) ||| u32Sub k (32 * 2)) % 2 ^ 16 := by
  have hle := mod_le_or_mod (0x5C00 + n) (u32Sub k (32 * 2)) 16
  have hle' := mod_le_or_mod (0x1C00 + n) (u32Sub k (32 * 2)) 16
  rw [u32Sub_mod hk (by decide)] at hle hle'
  omega

theorem cam_page1 {k : Nat} (hk : k < 64) (hk32 : 32 ≤ k) (n : Nat) :
    0xFFA0 ≤ ((0x4D00 + n) ||| u32Sub k (32 * 4)) % 2 ^ 16 := by
  have hle := mod_le_or_mod (0x4D00 + n) (u32Sub k (32 * 4)) 16
  rw [u32Sub_mod (by omega) (by decide)] at hle
  omega

theorem TcamWord.off_lt (w : TcamWord) : w.off < 14 := by
  cases w <;> decide

section Page0

variable {d : Direction} {r k i n b : Nat} {w : TcamWord}

theorem xformReg_page0 (hr : r < 64) (hi : i < 24) : xformReg d r i = ⟨mmdId d, 32 * r + i⟩ := by
  rw [xformReg, if_pos (show r < xformRecNumPage0 from hr), ioreg, xformRecAddrOffset, xform_or hr hi]

theorem xformReg_page1 (hr : r < 128) (hr64 : 64 ≤ r) (hi : i < 24) :
    xformReg d r i = ⟨mmdId d, 0x4000 + 32 * r + i⟩ := by
  rw [xformReg, if_neg (show ¬r < xformRecNumPage0 from Nat.not_lt.mpr hr64), ioreg, xformRecAddrOffset,
    xform_page1 hr hi]

theorem tcamPage0Reg_eq (hr : r < 128) : tcamPage0Reg d w r = ⟨mmdId d, 0x800 + 16 * r + w.off⟩ := by
  rw [tcamPage0Reg, ioreg, tcam_or hr w.off_lt]

theorem tcamReg_page0 (hr : r < 64) : tcamReg d w r = ⟨mmdId d, 0x800 + 16 * r + w.off⟩ := by
  rw [tcamReg, if_pos (show r < xformRecNumPage0 from hr), tcamPage0Reg_eq (by omega)]

theorem tcamPolicyReg_page0 (hr : r < 64) : tcamPolicyReg d r = ⟨mmdId d, 0xC00 + r⟩ := by
  rw [tcamPolicyReg, if_pos (show r < xformRecNumPage0 from hr), ioreg, policy_or hr]

theorem scSaMapReg_page0 (hk : k < 32) (hn : n < 2) : scSaMapReg d n k = ⟨mmdId d, 0xE00 + 2 * k + n⟩ := by
  rw [scSaMapReg, if_pos (show k < scRecPage0Num from hk), ioreg, map_or hk hn]

theorem flowCtrlReg_page0 (hk : k < 32) (hn : n < 2) : flowCtrlReg d n k = ⟨mmdId d, 0x1C00 + 2 * k + n⟩ := by
  rw [flowCtrlReg.eq_def, if_pos (show k < scRecPage0Num from hk), ioreg, flow_or hk hn]

theorem rxscCamReg_page0 (hk : k < 32) (hn : n < 3) : rxscCamReg n k = ⟨mmdId .ingress, 0xD00 + 4 * k + n⟩ := by
  rw [rxscCamReg, if_pos (show k < scRecPage0Num from hk), ioreg, cam_or hk hn]

/-- The one bit of a record's enable mask. -/
theorem entryBit_getLsbD (hr : r < 128) (h : (entryBit r).getLsbD b = true) : b = r % 32 := by
  unfold entryBit at h
  split_ifs at h <;> have := bit_getLsbD h <;> omega

end Page0

/-! ## Places -/

/-- Where the bits of a record's entries lie. -/
structure RecordPlace (g : Glb) (d : Direction) (r : Nat) (p : IoReg × Nat) : Prop where
  lt : r < 128
  mmd : p.1.mmd = mmdId d
  place : ((p.1.addr = 0x1820 + r / 32 ∨ p.1.addr = 0x1830 + r / 32) ∧ p.2 = r % 32) ∨
    ((r < 64 ∨ g.cleartags = true) ∧ 0x800 + 16 * r ≤ p.1.addr ∧ p.1.addr < 0x800 + 16 * r + 16) ∨
    (r < 64 ∧ p.1.addr = 0xC00 + r) ∨ (r < 64 ∧ 32 * r ≤ p.1.addr ∧ p.1.addr < 32 * r + 32) ∨
    (64 ≤ r ∧ 0x4000 ≤ p.1.addr)

/-- Where the words of entry `k` of a table lie. -/
structure TablePlace (d : Direction) (base size k : Nat) (p : IoReg × Nat) : Prop where
  mmd : p.1.mmd = mmdId d
  place : (k < 32 ∧ base + size * k ≤ p.1.addr ∧ p.1.addr < base + size * k + size) ∨ (32 ≤ k ∧ 0x4000 ≤ p.1.addr)

section Places

variable {g : Glb} {d d' : Direction} {r r' k k' : Nat} {p : IoReg × Nat}

theorem recordPlace_of_mem (hr : r < 128) (h : p ∈ recordBits g d r) : RecordPlace g d r p := by
  rcases h with ((h | h) | h) | h
  · rcases h with ⟨h, hm⟩ | ⟨h, hm⟩
    · refine ⟨hr, by rw [h]; rfl, Or.inl ⟨Or.inl ?_, entryBit_getLsbD hr hm⟩⟩
      rw [h]
      exact Nat.mod_eq_of_lt (by omega)
    · refine ⟨hr, by rw [h]; rfl, Or.inl ⟨Or.inr ?_, entryBit_getLsbD hr hm⟩⟩
      rw [h]
      simp only [entryClearReg, ioreg]
      split_ifs <;> omega
  · obtain ⟨w, h | ⟨hc, h⟩⟩ := h
    · have hw := w.off_lt
      rcases Nat.lt_or_ge r 64 with hr64 | hr64
      · rw [tcamReg_page0 hr64] at h
        exact ⟨hr, by rw [h], Or.inr (Or.inl ⟨Or.inl hr64, by rw [h]; simp only; omega⟩)⟩
      · rw [tcamReg, if_neg (show ¬r < xformRecNumPage0 from Nat.not_lt.mpr hr64), tcamPage1Reg, ioreg] at h
        have := tcam_page1 hr w.off
        exact ⟨hr, by rw [h], Or.inr (Or.inr (Or.inr (Or.inr ⟨hr64, by rw [h]; simp only; omega⟩)))⟩
    · have hw := w.off_lt
      rw [tcamPage0Reg_eq hr] at h
      exact ⟨hr, by rw [h], Or.inr (Or.inl ⟨Or.inr hc, by rw [h]; simp only; omega⟩)⟩
  · replace h : p.1 = tcamPolicyReg d r := h
    rcases Nat.lt_or_ge r 64 with hr64 | hr64
    · rw [tcamPolicyReg_page0 hr64] at h
      exact ⟨hr, by rw [h], Or.inr (Or.inr (Or.inl ⟨hr64, by rw [h]⟩))⟩
    · rw [tcamPolicyReg, if_neg (show ¬r < xformRecNumPage0 from Nat.not_lt.mpr hr64), ioreg,
        policy_page1 hr hr64] at h
      exact ⟨hr, by rw [h], Or.inr (Or.inr (Or.inr (Or.inr ⟨hr64, by rw [h]; simp only; omega⟩)))⟩
  · obtain ⟨i, hi, h⟩ := h
    replace hi : i < 24 := hi
    rcases Nat.lt_or_ge r 64 with hr64 | hr64
    · rw [xformReg_page0 hr64 hi] at h
      exact ⟨hr, by rw [h], Or.inr (Or.inr (Or.inr (Or.inl ⟨hr64, by rw [h]; simp only; omega⟩)))⟩
    · rw [xformReg_page1 hr hr64 hi] at h
      exact ⟨hr, by rw [h], Or.inr (Or.inr (Or.inr (Or.inr ⟨hr64, by rw [h]; simp only; omega⟩)))⟩

theorem flowPlace_of_mem (hk : k < 64) (h : p ∈ flowBits d k) : TablePlace d 0x1C00 2 k p := by
  obtain ⟨n, hn, h⟩ := h
  rcases Nat.lt_or_ge k 32 with hk32 | hk32
  · rw [flowCtrlReg_page0 hk32 hn] at h
    exact ⟨by rw [h], Or.inl ⟨hk32, by rw [h]; simp only; omega⟩⟩
  · rw [flowCtrlReg.eq_def, if_neg (show ¬k < scRecPage0Num from Nat.not_lt.mpr hk32), ioreg] at h
    have := flow_page1 hk hk32 n
    refine ⟨by rw [h], Or.inr ⟨hk32, ?_⟩⟩
    rw [h]
    cases d <;> simp only <;> omega

theorem scSaMapPlace {n : Nat} (hk : k < 64) (hn : n < 2) (h : p.1 = scSaMapReg d n k) : TablePlace d 0xE00 2 k p := by
  rcases Nat.lt_or_ge k 32 with hk32 | hk32
  · rw [scSaMapReg_page0 hk32 hn] at h
    exact ⟨by rw [h], Or.inl ⟨hk32, by rw [h]; simp only; omega⟩⟩
  · rw [scSaMapReg, if_neg (show ¬k < scRecPage0Num from Nat.not_lt.mpr hk32), ioreg] at h
    have := map_page1 hk hk32 n
    exact ⟨by rw [h], Or.inr ⟨hk32, by rw [h]; simp only; omega⟩⟩

theorem mapPlace_of_mem (hk : k < 64) (h : p ∈ mapBits d k) : TablePlace d 0xE00 2 k p := by
  rcases h with h | ⟨-, h⟩
  · exact scSaMapPlace hk (by decide) h
  · exact scSaMapPlace hk (by decide) h

theorem camPlace_of_mem (hk : k < 64) (h : p ∈ camBits k) : TablePlace .ingress 0xD00 4 k p := by
  obtain ⟨n, hn, h⟩ := h
  rcases Nat.lt_or_ge k 32 with hk32 | hk32
  · rw [rxscCamReg_page0 hk32 hn] at h
    exact ⟨by rw [h], Or.inl ⟨hk32, by rw [h]; simp only; omega⟩⟩
  · rw [rxscCamReg, if_neg (show ¬k < scRecPage0Num from Nat.not_lt.mpr hk32), ioreg] at h
    have := cam_page1 hk hk32 n
    exact ⟨by rw [h], Or.inr ⟨hk32, by rw [h]; simp only; omega⟩⟩

/-- The shared registers lie between the tables of page 0 and page 1. -/
theorem sharedPlace_of_mem (h : p ∈ sharedBits) :
    p.1.addr = 0xDC0 ∨ p.1.addr = 0x1840 ∨ (0x1C40 ≤ p.1.addr ∧ p.1.addr < 0x4000) := by
  rcases h with ⟨d, h | h | h⟩ | h | h | h | h | h | h <;> rw [h] <;> first
    | exact Or.inl rfl
    | exact Or.inr (Or.inl rfl)
    | exact Or.inr (Or.inr (show 0x1C40 ≤ _ % 2 ^ 16 ∧ _ % 2 ^ 16 < 0x4000 by decide))

/-- In the header-bypass mode the page 0 words of a record may lie beyond those of page 0; how far, its bound says. -/
theorem RecordPlace.bounded {n : Nat} (h : RecordPlace g d r p) (hg : g.cleartags = true → r < n) :
    ((p.1.addr = 0x1820 + r / 32 ∨ p.1.addr = 0x1830 + r / 32) ∧ p.2 = r % 32) ∨
    ((r < 64 ∨ r < n) ∧ 0x800 + 16 * r ≤ p.1.addr ∧ p.1.addr < 0x800 + 16 * r + 16) ∨
    (r < 64 ∧ p.1.addr = 0xC00 + r) ∨ (r < 64 ∧ 32 * r ≤ p.1.addr ∧ p.1.addr < 32 * r + 32) ∨
    (64 ≤ r ∧ 0x4000 ≤ p.1.addr) :=
  h.place.imp_right (Or.imp_left fun h => ⟨h.1.imp_right hg, h.2⟩)

/-- A record on page 0 shares no bit with another record, on whichever page; with one in the header-bypass mode, when
that one is on page 0 too. -/
theorem RecordPlace.unique (h : RecordPlace g d r p) (h' : RecordPlace g d' r' p) (hr : r < 64)
    (hg : g.cleartags = true → r' < 64) : d' = d ∧ r' = r := by
  have hp := h.bounded (n := 64) fun _ => hr
  have hp' := h'.bounded hg
  have hlt := h'.lt
  exact ⟨mmdId_inj (h'.mmd.symm.trans h.mmd), by omega⟩

/-- A record shares no bit with a map entry, unless both are on page 1; in the header-bypass mode, when it is below
96. -/
theorem RecordPlace.not_map (h : RecordPlace g d r p) (hg : g.cleartags = true → r < 96) (hk : k < 32 ∨ r < 64) :
    ¬TablePlace d' 0xE00 2 k p := by
  intro hm
  have hp := h.bounded hg
  have hpl := hm.place
  have hlt := h.lt
  omega

/-- An entry of a table on page 0 shares no bit with another entry of the same table. -/
theorem TablePlace.unique {base size : Nat} (h : TablePlace d base size k p) (h' : TablePlace d' base size k' p)
    (hk : k < 32) (hb : base + size * 32 ≤ 0x4000) : d' = d ∧ k' = k := by
  refine ⟨mmdId_inj (h'.mmd.symm.trans h.mmd), ?_⟩
  have hlt : size * k + size ≤ size * 32 := by
    rw [← Nat.mul_succ]
    exact Nat.mul_le_mul_left size hk
  obtain ⟨-, h₁, h₂⟩ := h.place.resolve_right fun h => by omega
  obtain ⟨-, h₁', h₂'⟩ := h'.place.resolve_right fun h => by omega
  rcases Nat.lt_trichotomy k k' with hlt | heq | hlt
  · have := Nat.mul_le_mul_left size hlt
    rw [Nat.mul_succ] at this
    omega
  · exact heq.symm
  · have := Nat.mul_le_mul_left size hlt
    rw [Nat.mul_succ] at this
    omega

end Places

/-! ## Words of the transform records -/

section Words

variable {d d' : Direction} {r r' n n' k m : Nat}

/-- The address of a word of a transform record. -/
theorem xformReg_eq (hr : r < 128) (hn : n < 24) :
    xformReg d r n = ⟨mmdId d, (if r < 64 then 0 else 0x4000) + 32 * r + n⟩ := by
  split
  · next h => rw [xformReg_page0 h hn, Nat.zero_add]
  · next h => exact xformReg_page1 hr (Nat.not_lt.mp h) hn

theorem xformReg_inj (hr : r < 128) (hn : n < 24) (hr' : r' < 128) (hn' : n' < 24)
    (h : xformReg d r n = xformReg d' r' n') : d = d' ∧ r = r' ∧ n = n' := by
  rw [xformReg_eq hr hn, xformReg_eq hr' hn', IoReg.mk.injEq] at h
  refine ⟨mmdId_inj h.1, ?_⟩
  have := h.2
  split_ifs at this <;> omega

theorem xformReg_ne_tcam (hr : r < 128) (hn : n < 24) (hr' : r' < 128) (w : TcamWord) :
    xformReg d r n ≠ tcamReg d' w r' ∧ xformReg d r n ≠ tcamPage0Reg d' w r' := by
  have hw := w.off_lt
  have hne : xformReg d r n ≠ tcamPage0Reg d' w r' := by
    intro h
    rw [xformReg_eq hr hn, tcamPage0Reg_eq hr', IoReg.mk.injEq] at h
    have := h.2
    split_ifs at this <;> omega
  refine ⟨?_, hne⟩
  unfold tcamReg
  split
  · exact hne
  · next h64 =>
    intro h
    have h₁ := tcam_page1 hr' w.off
    rw [xformReg_eq hr hn, tcamPage1Reg, ioreg, IoReg.mk.injEq] at h
    have := h.2
    split_ifs at this <;> omega

theorem TablePlace.ne_xform {base size : Nat} {p : IoReg} {b : Nat} (h : TablePlace d' base size k (p, b))
    (hb : 0x800 ≤ base) (hs : base + size * 32 ≤ 0x4000) (hp : k < 32 ∨ 0x5000 ≤ p.addr) (hr : r < 128) (hn : n < 24) :
    xformReg d r n ≠ p := by
  rintro rfl
  have hpl := h.place
  rw [xformReg_eq hr hn] at hpl hp
  simp only at hpl hp
  have hk : k < 32 → size * k + size ≤ size * 32 := fun hk => by
    rw [← Nat.mul_succ]
    exact Nat.mul_le_mul_left size hk
  split_ifs at hpl hp <;> omega

theorem xformReg_ne_flow (hr : r < 128) (hn : n < 24) (hk : k < 64) (hm : m < 2) :
    xformReg d r n ≠ flowCtrlReg d' m k := by
  refine TablePlace.ne_xform (p := flowCtrlReg d' m k) (b := 0) (flowPlace_of_mem hk ⟨m, hm, rfl⟩) (by decide)
    (by decide) ((Nat.lt_or_ge k 32).imp id fun hk32 => ?_) hr hn
  rw [flowCtrlReg.eq_def, if_neg (show ¬k < scRecPage0Num from Nat.not_lt.mpr hk32)]
  have := flow_page1 hk hk32 m
  cases d' <;> simp only [ioreg] <;> omega

theorem xformReg_ne_map (hr : r < 128) (hn : n < 24) (hk : k < 64) (hm : m < 2) :
    xformReg d r n ≠ scSaMapReg d' m k := by
  refine TablePlace.ne_xform (p := scSaMapReg d' m k) (b := 0) (scSaMapPlace hk hm rfl) (by decide) (by decide)
    ((Nat.lt_or_ge k 32).imp id fun hk32 => ?_) hr hn
  rw [scSaMapReg, if_neg (show ¬k < scRecPage0Num from Nat.not_lt.mpr hk32)]
  have := map_page1 hk hk32 m
  simp only [ioreg]
  omega

/-- Words of the records 96 and 97 are policies of page 1. -/
theorem xformReg_eq_policy (hr : r < 128) (hn : n < 24) (hr' : r' < 128) : xformReg d r n = tcamPolicyReg d' r' ↔
    d = d' ∧ 64 ≤ r' ∧ 96 ≤ r ∧ 32 * (r - 96) + n = r' - 64 := by
  rw [xformReg_eq hr hn]
  rcases Nat.lt_or_ge r' 64 with h64 | h64
  · rw [tcamPolicyReg_page0 h64, IoReg.mk.injEq]
    refine ⟨fun h => ?_, fun h => by omega⟩
    have := h.2
    split_ifs at this <;> omega
  · rw [tcamPolicyReg, if_neg (show ¬r' < xformRecNumPage0 from Nat.not_lt.mpr h64), ioreg, policy_page1 hr' h64,
      IoReg.mk.injEq]
    constructor
    · rintro ⟨hd, h⟩
      refine ⟨mmdId_inj hd, h64, ?_⟩
      split_ifs at h <;> omega
    · rintro ⟨rfl, -, h96, h⟩
      refine ⟨rfl, ?_⟩
      rw [if_neg (by omega)]
      omega

end Words

end Lan80xx.Macsec
