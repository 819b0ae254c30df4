import Mathlib.Data.List.Induction
import Lan80xx.Poe.CheckSum
import Lan80xx.Poe.Transaction

/-!
# PoE controller: how the receiver finds a reply behind noise

The receiver takes the noise apart from its start, into single bytes that are no key and pairs of a key and the byte
behind it. A key at the end of the noise takes the first byte of the reply with it.

- `skips_noise`: the receiver drops the noise up to a key that is left over;
- `resyncs_of_paired`, `paired_of_resyncs`: the reply is found exactly when no key is left over;
- `receiver_ends`: the receiver ends on every stream that settles;
- `resync_iff`: both together.
-/

namespace Lan80xx.Poe

open RegBus Loop

/-! ## Byte streams -/

/-- What can be read from the controller: a byte at each place, or an error. -/
abbrev ByteStream := Nat → Option Byte

/-- The `n` bytes from a place on. -/
def ByteStream.bytesAt (s : ByteStream) : Nat → Nat → Option (List Byte)
  | _, 0 => some []
  | p, n + 1 => (s p).bind fun b => (bytesAt s (p + 1) n).map (b :: ·)

theorem ByteStream.bytesAt_length {s : ByteStream} {n p : Nat} {l : List Byte} (h : s.bytesAt p n = some l) :
    l.length = n := by
  induction n generalizing p l with
  | zero =>
    cases h
    rfl
  | succ n ih =>
    obtain ⟨b, -, hl⟩ := Option.bind_eq_some_iff.mp h
    obtain ⟨l', hl', rfl⟩ := Option.map_eq_some_iff.mp hl
    rw [List.length_cons, ih hl']

/-- The bus over a stream; its state is the place of the next byte. -/
def streamI2c (s : ByteStream) : I2c Nat where
  write _ p := (true, p)
  read n p := (s.bytesAt p n, p + n)
  read_length _ _ _ h := (ByteStream.bytesAt_length h).le

/-- The stream has the bytes of the list at a place. -/
def Carries (s : ByteStream) (p : Nat) (l : List Byte) : Prop := ∀ i < l.length, s (p + i) = l[i]?

section Streams

variable {s : ByteStream} {p n : Nat} {l : List Byte} {b : Byte}

theorem carries_cons : Carries s p (b :: l) ↔ s p = some b ∧ Carries s (p + 1) l := by
  constructor
  · intro h
    refine ⟨by simpa using h 0 (by simp), fun i hi => ?_⟩
    have hnext := h (i + 1) (by simpa using hi)
    rwa [List.getElem?_cons_succ, ← Nat.add_assoc, Nat.add_right_comm] at hnext
  · rintro ⟨hb, hl⟩ i hi
    cases i with
    | zero => simpa using hb
    | succ i =>
      rw [List.getElem?_cons_succ, ← Nat.add_assoc, Nat.add_right_comm]
      exact hl i (by simpa using hi)

theorem carries_append {k : List Byte} : Carries s p (k ++ l) ↔ Carries s p k ∧ Carries s (p + k.length) l := by
  induction k generalizing p with
  | nil => simp [Carries]
  | cons b k ih =>
    rw [List.cons_append, carries_cons, carries_cons, ih, List.length_cons, and_assoc,
      Nat.add_assoc, Nat.add_comm 1]

theorem bytesAt_iff : s.bytesAt p n = some l ↔ l.length = n ∧ Carries s p l := by
  induction n generalizing p l with
  | zero =>
    cases l <;> simp [ByteStream.bytesAt, Carries]
  | succ n ih =>
    cases l with
    | nil => simp [ByteStream.bytesAt, Option.bind_eq_some_iff]
    | cons b l =>
      rw [carries_cons, List.length_cons, Nat.add_right_cancel_iff, ← and_left_comm, ← ih]
      simp only [ByteStream.bytesAt, Option.bind_eq_some_iff, Option.map_eq_some_iff, List.cons.injEq]
      constructor
      · rintro ⟨c, hc, k, hk, rfl, rfl⟩
        exact ⟨hc, hk⟩
      · rintro ⟨hb, hl⟩
        exact ⟨b, hb, l, hl, rfl, rfl⟩

theorem toList_getElem? (v : Vector Byte n) {i : Nat} (hi : i < n) : v.toList[i]? = some v[i] := by
  simp [hi]

/-- A read that succeeds. -/
theorem rd_stream_iff {v : Vector Byte n} {q : Nat} :
    (streamI2c s).rd n p = (some v, q) ↔ Carries s p v.toList ∧ q = p + n := by
  have hread : (streamI2c s).read n p = (s.bytesAt p n, p + n) := rfl
  unfold I2c.rd
  rw [hread]
  cases hl : s.bytesAt p n with
  | none =>
    have hnot : ¬Carries s p v.toList := fun h => by
      rw [bytesAt_iff.mpr ⟨v.length_toList, h⟩] at hl
      cases hl
    simp [hnot]
  | some l =>
    obtain ⟨hlen, hcar⟩ := bytesAt_iff.mp hl
    have heq : (⟨l.toArray, by simpa using hlen⟩ : Vector Byte n) = v ↔ Carries s p v.toList := by
      constructor
      · rintro rfl
        exact hcar
      · intro hv
        have := (bytesAt_iff.mpr ⟨v.length_toList, hv⟩).symm.trans hl
        rw [← Vector.toList_inj]
        exact (Option.some.inj this).symm
    simp only [hlen, ↓reduceDIte, Prod.mk.injEq, Option.some.injEq, heq, eq_comm (a := q)]

theorem rd_one_iff {v : Vector Byte 1} {q : Nat} :
    (streamI2c s).rd 1 p = (some v, q) ↔ s p = some (v.get 0) ∧ q = p + 1 := by
  obtain ⟨b, hb⟩ := List.length_eq_one_iff.mp v.length_toList
  have hv : v.get 0 = b := Option.some.inj ((toList_getElem? v (by decide)).symm.trans (by rw [hb]; rfl))
  rw [rd_stream_iff, hb, hv, carries_cons]
  simp [Carries]

end Streams

/-! ## Noise -/

/-- Noise: no 30 equal bytes 0 or 0xFF in a row, and no key before the expected echo or 0xFF. -/
structure Noise (txEcho : Byte) (noise : List Byte) : Prop where
  zero : ¬List.replicate 30 0#8 <:+: noise
  ff : ¬List.replicate 30 0xFF#8 <:+: noise
  key : ∀ key echo, [key, echo] <:+: noise → isReplyKey key → echo ≠ txEcho ∧ echo ≠ systemStatusEchoKey

/-- A reply with a right checksum and the expected echo. -/
structure ValidReply (txEcho : Byte) (reply : Msg) : Prop where
  key : isReplyKey (reply.get 0)
  echo : reply.get 1 = txEcho
  sum : SumFits reply

/-- The key that is left over at the end, when the bytes are taken apart from the start. -/
def unpairedKey : List Byte → Option Byte
  | [] => none
  | [b] => if isReplyKey b then some b else none
  | b :: echo :: l => if isReplyKey b then unpairedKey l else unpairedKey (echo :: l)

theorem unpairedKey_isReplyKey {l : List Byte} {key : Byte} (h : key ∈ unpairedKey l) : isReplyKey key := by
  induction l using unpairedKey.induct with
  | case1 => cases h
  | case2 b hkey =>
    rw [unpairedKey, if_pos hkey] at h
    cases h
    exact hkey
  | case3 b hkey =>
    rw [unpairedKey, if_neg hkey] at h
    cases h
  | case4 b echo l hkey ih =>
    rw [unpairedKey, if_pos hkey] at h
    exact ih h
  | case5 b echo l hkey ih =>
    rw [unpairedKey, if_neg hkey] at h
    exact ih h

/-- The counters after some bytes. -/
def countsOf (l : List Byte) : Counts := l.foldl Counts.read {}

theorem countsOf_concat (l : List Byte) (b : Byte) : countsOf (l ++ [b]) = (countsOf l).read b := by
  simp [countsOf]

/-- The counters are the lengths of the runs at the end. -/
theorem countsOf_runs (l : List Byte) :
    List.replicate (countsOf l).zero 0#8 <:+ l ∧ List.replicate (countsOf l).ff 0xFF#8 <:+ l := by
  induction l using List.reverseRecOn with
  | nil => exact ⟨List.suffix_refl _, List.suffix_refl _⟩
  | append_singleton l b ih =>
    have hgrow : ∀ (x : Byte) (n : Nat), List.replicate n x <:+ l →
        List.replicate (if b = x then n + 1 else 0) x <:+ l ++ [b] := by
      intro x n hn
      split
      · next hb =>
        obtain ⟨k, rfl⟩ := hn
        exact ⟨k, by rw [hb, List.replicate_succ', List.append_assoc]⟩
      · exact List.nil_suffix
    rw [countsOf_concat]
    exact ⟨hgrow _ _ ih.1, hgrow _ _ ih.2⟩

theorem Noise.waiting {txEcho : Byte} {noise pre : List Byte} (hn : Noise txEcho noise) (hpre : pre <+: noise) :
    (countsOf pre).Waiting := by
  have hlong : ∀ (x : Byte) (n : Nat), List.replicate n x <:+ pre → ¬List.replicate 30 x <:+: noise → n < 30 := by
    intro x n hrun hno
    by_contra hge
    apply hno
    have hthirty : List.replicate 30 x <:+: List.replicate n x := by
      refine List.IsPrefix.isInfix ⟨List.replicate (n - 30) x, ?_⟩
      rw [List.replicate_append_replicate]
      congr 1
      omega
    exact (hthirty.trans hrun.isInfix).trans hpre.isInfix
  exact ⟨hlong _ _ (countsOf_runs pre).2 hn.ff, hlong _ _ (countsOf_runs pre).1 hn.zero⟩

theorem frame_toList (key echo : Byte) (rest : Vector Byte 13) :
    (frame key echo rest).toList = key :: echo :: rest.toList := by
  have h : (#v[key, echo] ++ rest).toList = #v[key, echo].toList ++ rest.toList := Vector.toList_append ..
  exact h

theorem exists_frame (msg : Msg) : ∃ rest, msg = frame (msg.get 0) (msg.get 1) rest := by
  have hlen := msg.length_toList
  rcases hl : msg.toList with _ | ⟨key, _ | ⟨echo, l⟩⟩
  · simp [hl] at hlen
  · simp [hl] at hlen
  · have hkey : msg.get 0 = key := Option.some.inj ((toList_getElem? msg (by decide)).symm.trans (by rw [hl]; rfl))
    have hecho : msg.get 1 = echo := Option.some.inj ((toList_getElem? msg (by decide)).symm.trans (by rw [hl]; rfl))
    have hrest : l.toArray.size = 13 := by simpa [hl] using hlen
    refine ⟨⟨l.toArray, hrest⟩, ?_⟩
    rw [← Vector.toList_inj, frame_toList, hkey, hecho]
    exact hl

section Receiver

variable {s : ByteStream} {txEcho : Byte} {noise : List Byte} {reply : Msg}

/-- The receiver drops noise up to a key that is left over. -/
theorem skips_noise (hn : Noise txEcho noise) (hs : Carries s 0 noise) {pre l : List Byte} (hl : noise = pre ++ l) :
    ∃ done, noise = done ++ (unpairedKey l).toList ∧
      Relation.ReflTransGen (Skips (streamI2c s) txEcho) (countsOf pre, pre.length) (countsOf done, done.length) := by
  induction l using unpairedKey.induct generalizing pre with
  | case1 => exact ⟨pre, hl, .refl⟩
  | case2 b hkey => exact ⟨pre, by rw [hl, unpairedKey, if_pos hkey, Option.toList_some], .refl⟩
  | case3 b hkey =>
    have hcar := hs
    rw [hl, carries_append, carries_cons, Nat.zero_add] at hcar
    have hrd : (streamI2c s).rd 1 pre.length = (some #v[b], pre.length + 1) := rd_one_iff.mpr ⟨hcar.2.1, rfl⟩
    have hskip : Skips (streamI2c s) txEcho (countsOf pre, pre.length) _ :=
      .noKey (hn.waiting ⟨_, hl.symm⟩) hrd hkey
    refine ⟨pre ++ [b], by rw [hl, unpairedKey, if_neg hkey]; simp, .single ?_⟩
    rw [countsOf_concat, List.length_append]
    exact hskip
  | case4 b echo l hkey ih =>
    have hcar := hs
    rw [hl, carries_append, carries_cons, carries_cons, Nat.zero_add] at hcar
    have hrd : (streamI2c s).rd 1 pre.length = (some #v[b], pre.length + 1) := rd_one_iff.mpr ⟨hcar.2.1, rfl⟩
    have hrd' : (streamI2c s).rd 1 (pre.length + 1) = (some #v[echo], pre.length + 2) :=
      rd_one_iff.mpr ⟨hcar.2.2.1, rfl⟩
    have hecho : ¬echoFits txEcho b echo := by
      obtain ⟨htx, hst⟩ := hn.key b echo ⟨pre, l, by rw [hl]; simp⟩ hkey
      simp [echoFits, htx, hst]
    have hskip : Skips (streamI2c s) txEcho (countsOf pre, pre.length) _ :=
      .foreign (hn.waiting ⟨_, hl.symm⟩) hrd hkey hrd' hecho
    obtain ⟨done, hdone, hrun⟩ := ih (show noise = pre ++ [b] ++ [echo] ++ l by rw [hl]; simp)
    rw [countsOf_concat, countsOf_concat, List.length_append, List.length_append] at hrun
    exact ⟨done, by rw [hdone, unpairedKey, if_pos hkey], .head hskip hrun⟩
  | case5 b echo l hkey ih =>
    have hcar := hs
    rw [hl, carries_append, carries_cons, Nat.zero_add] at hcar
    have hrd : (streamI2c s).rd 1 pre.length = (some #v[b], pre.length + 1) := rd_one_iff.mpr ⟨hcar.2.1, rfl⟩
    have hskip : Skips (streamI2c s) txEcho (countsOf pre, pre.length) _ :=
      .noKey (hn.waiting ⟨_, hl.symm⟩) hrd hkey
    obtain ⟨done, hdone, hrun⟩ := ih (show noise = pre ++ [b] ++ (echo :: l) by rw [hl]; simp)
    rw [countsOf_concat, List.length_append] at hrun
    exact ⟨done, by rw [hdone, unpairedKey, if_neg hkey], .head hskip hrun⟩

/-- What a reply is read from. -/
theorem message_stream_iff {x : Spot Nat} : MessageAt (streamI2c s) txEcho x reply ↔
    x.1.Waiting ∧ Carries s x.2 reply.toList ∧ isReplyKey (reply.get 0) ∧ echoFits txEcho (reply.get 0) (reply.get 1) ∧
      pd69200CheckSumOk reply := by
  constructor
  · intro h
    cases h with
    | @mk key echo c h rest h₁ hhead hrd hsum =>
      cases hhead with
      | mk hwait hrd₀ hkey hrd₁ hecho =>
        obtain ⟨h₀, rfl⟩ := rd_one_iff.mp hrd₀
        obtain ⟨h₁, rfl⟩ := rd_one_iff.mp hrd₁
        obtain ⟨h₂, rfl⟩ := rd_stream_iff.mp hrd
        rw [show (frame _ _ rest).get 0 = _ from frame_key _ _ rest,
          show (frame _ _ rest).get 1 = _ from frame_echo _ _ rest]
        refine ⟨hwait, ?_, hkey, hecho, hsum⟩
        rw [frame_toList, carries_cons, carries_cons]
        exact ⟨h₀, h₁, h₂⟩
  · rintro ⟨hwait, hcar, hkey, hecho, hsum⟩
    obtain ⟨rest, hrest⟩ := exists_frame reply
    rw [hrest, frame_toList, carries_cons, carries_cons] at hcar
    obtain ⟨h₀, h₁, h₂⟩ := hcar
    have hrd₀ : (streamI2c s).rd 1 x.2 = (some #v[reply.get 0], x.2 + 1) := rd_one_iff.mpr ⟨h₀, rfl⟩
    have hrd₁ : (streamI2c s).rd 1 (x.2 + 1) = (some #v[reply.get 1], x.2 + 1 + 1) := rd_one_iff.mpr ⟨h₁, rfl⟩
    have hrd₂ : (streamI2c s).rd 13 (x.2 + 1 + 1) = (some rest, x.2 + 1 + 1 + 13) := rd_stream_iff.mpr ⟨h₂, rfl⟩
    have hhead : HeaderAt (streamI2c s) txEcho x (reply.get 0) (reply.get 1) _ := .mk hwait hrd₀ hkey hrd₁ hecho
    rw [hrest] at hsum ⊢
    exact .mk hhead hrd₂ hsum

/-- What the receiver drops ends behind the place where it began, and a key is dropped together with the next byte. -/
theorem Skips.place_lt {x y : Spot Nat} (h : Skips (streamI2c s) txEcho x y) :
    x.2 < y.2 ∧ ∀ key, s x.2 = some key → isReplyKey key → x.2 + 2 ≤ y.2 := by
  cases h with
  | noKey hwait hrd hkey =>
    obtain ⟨hb, rfl⟩ := rd_one_iff.mp hrd
    refine ⟨Nat.lt_succ_self _, fun key hkey₀ hkey' => ?_⟩
    rw [Option.some.inj (hkey₀.symm.trans hb)] at hkey'
    exact absurd hkey' hkey
  | foreign hwait hrd hkey hrd' hecho =>
    obtain ⟨-, rfl⟩ := rd_one_iff.mp hrd
    obtain ⟨-, rfl⟩ := rd_one_iff.mp hrd'
    exact ⟨by omega, fun _ _ _ => le_rfl⟩
  | garbled hhead hrd hsum =>
    cases hhead with
    | mk hwait hrd₀ hkey hrd₁ hecho =>
      obtain ⟨-, rfl⟩ := rd_one_iff.mp hrd₀
      obtain ⟨-, rfl⟩ := rd_one_iff.mp hrd₁
      obtain ⟨-, rfl⟩ := rd_stream_iff.mp hrd
      exact ⟨by omega, fun _ _ _ => by omega⟩

theorem skips_place_le {x y : Spot Nat} (h : Relation.ReflTransGen (Skips (streamI2c s) txEcho) x y) : x.2 ≤ y.2 := by
  induction h with
  | refl => exact le_rfl
  | tail _ hskip ih => exact ih.trans hskip.place_lt.1.le

/-! ## The reply behind the noise -/

/-- The receiver returns the reply, whatever comes behind it. -/
def Resyncs (txEcho : Byte) (noise : List Byte) (reply : Msg) : Prop :=
  ∀ (s : ByteStream) (rx : Msg), Carries s 0 (noise ++ reply.toList) →
    ∃ fuel r, get15BytesCommProtocolReply (streamI2c s) fuel rx txEcho 0 = some (.ok, r) ∧ r.rx = reply

/-- A reply behind noise from which no key is left over arrives. -/
theorem arrives_of_paired (hn : Noise txEcho noise) (hr : ValidReply txEcho reply) (hpair : unpairedKey noise = none)
    (hs : Carries s 0 (noise ++ reply.toList)) : Arrives (streamI2c s) txEcho 0 reply := by
  obtain ⟨hnoise, hreply⟩ := carries_append.mp hs
  obtain ⟨done, hdone, hrun⟩ := skips_noise hn hnoise (List.nil_append noise).symm
  rw [hpair, Option.toList_none, List.append_nil] at hdone
  subst hdone
  refine ⟨_, hrun, message_stream_iff.mpr ⟨hn.waiting (List.prefix_refl _), ?_, hr.key, ?_, ?_⟩⟩
  · rwa [Nat.zero_add] at hreply
  · simp [echoFits, hr.echo]
  · exact (checkSumOk_iff _).mpr (Or.inl ((sumFits_iff _).mp hr.sum).1)

/-- The return code for a reply: a reply with echo 0xFF is taken as a system status. -/
theorem messageRc_reply (hr : ValidReply txEcho reply) : messageRc reply = .ok ↔
    (txEcho = systemStatusEchoKey → reply.get 2 = 0#8 ∧ reply.get 5 = 0#8) := by
  by_cases hst : txEcho = systemStatusEchoKey
  · rw [messageRc_of_status (hr.echo.trans hst)]
    simp only [hst, true_implies]
    rfl
  · have hne : reply[1] ≠ systemStatusEchoKey := fun h => hst (hr.echo.symm.trans h)
    simp [messageRc, hne, hst]

/-- Noise and reply, and nothing that can be read behind them. -/
def cutStream (l : List Byte) : ByteStream := fun i => l[i]?

theorem carries_cutStream (l : List Byte) : Carries (cutStream l) 0 l := by
  intro i hi
  rw [Nat.zero_add, cutStream]

/-- A valid reply is no message of 15 equal bytes. -/
theorem ValidReply.not_const (hr : ValidReply txEcho reply) : ∃ i, ∃ hi : i < 14, reply[i + 1] ≠ reply[i] := by
  by_contra hno
  push Not at hno
  have hall : ∀ i (hi : i < 15), reply[i] = reply.get 0 := by
    intro i hi
    induction i with
    | zero => rfl
    | succ i ih => rw [hno i (by omega), ih (by omega)]
  have hconst : reply = Vector.replicate 15 (reply.get 0) := by
    ext i hi
    rw [hall i hi, Vector.getElem_replicate]
  have hkey : reply.get 0 = telemetryKey ∨ reply.get 0 = reportKey := by simpa [isReplyKey] using hr.key
  have hsum := hr.sum
  rw [hconst] at hsum
  rcases hkey with h | h
  · rw [h] at hsum
    revert hsum
    decide
  · rw [h] at hsum
    revert hsum
    decide

/-- A key that is left over takes the first byte of the reply with it. -/
theorem paired_of_resyncs (hn : Noise txEcho noise) (hr : ValidReply txEcho reply) (h : Resyncs txEcho noise reply) :
    unpairedKey noise = none := by
  rw [Option.eq_none_iff_forall_not_mem]
  intro key hkey
  have hcar := carries_cutStream (noise ++ reply.toList)
  have hend : ∀ i, cutStream (noise ++ reply.toList) i = (noise ++ reply.toList)[i]? := fun _ => rfl
  obtain ⟨fuel, r, hloop, hrx⟩ := h _ reply hcar
  generalize cutStream (noise ++ reply.toList) = s at hcar hend hloop
  obtain ⟨hnoise, hreply⟩ := carries_append.mp hcar
  obtain ⟨done, hdone, hrun⟩ := skips_noise hn hnoise (List.nil_append noise).symm
  rw [Option.mem_def.mp hkey, Option.toList_some] at hdone
  subst hdone
  obtain ⟨-, hlast⟩ := carries_append.mp hnoise
  have hat : s done.length = some key := by simpa using (carries_cons.mp hlast).1
  -- the receiver still has to find the reply from the key on
  obtain ⟨t, hpass, hspot⟩ :=
    passes_of_steps (.start reply 0) RxState.spot (fun _ _ => replyStep_of_skips) hrun
  obtain ⟨x, hskips, hmsg, -⟩ := message_of_leads ((leads_of_passes hpass).mp (.of_loop hloop))
  rw [hrx, message_stream_iff] at hmsg
  rw [hspot] at hskips
  obtain ⟨-, hfound, -, -, -⟩ := hmsg
  rcases Relation.ReflTransGen.cases_head hskips with rfl | ⟨y, hskip, hrest⟩
  · obtain ⟨i, hi, hne⟩ := hr.not_const
    apply hne
    have hfirst := hfound (i + 1) (by simpa using (by omega : i + 1 < 15))
    have hsecond := hreply i (by simpa using (by omega : i < 15))
    rw [toList_getElem? _ (by omega)] at hfirst hsecond
    rw [Nat.zero_add, List.length_append, List.length_singleton, Nat.add_assoc, Nat.add_comm 1] at hsecond
    exact Option.some.inj (hfirst.symm.trans hsecond)
  · -- the bytes behind the key are too few
    have hbehind := (hskip.place_lt.2 key hat (unpairedKey_isReplyKey hkey)).trans (skips_place_le hrest)
    have hlast := hfound 14 (by simp)
    rw [hend, toList_getElem? _ (by decide), List.getElem?_eq_none (by simp; omega)] at hlast
    cases hlast

/-- A valid reply behind noise is found when no key is left over and it is no system status with an error. -/
theorem resyncs_of_paired (hn : Noise txEcho noise) (hr : ValidReply txEcho reply) (hpair : unpairedKey noise = none)
    (hrc : messageRc reply = .ok) : Resyncs txEcho noise reply := by
  intro s rx hs
  obtain ⟨r, hleads, hrx⟩ := leads_of_arrives rx (arrives_of_paired hn hr hpair hs)
  rw [hrc] at hleads
  obtain ⟨fuel, hfuel⟩ := hleads.exists_loop
  exact ⟨fuel, r, hfuel, hrx⟩

theorem messageRc_of_resyncs (h : Resyncs txEcho noise reply) : messageRc reply = .ok := by
  obtain ⟨fuel, r, hloop, hrx⟩ := h _ reply (carries_cutStream _)
  obtain ⟨-, hrc⟩ := arrives_of_leads (Leads.of_loop hloop)
  rwa [hrx] at hrc

end Receiver

/-! ## The end of the receiver -/

/-- From some point on there are only bytes 0, only bytes 0xFF, or only errors. -/
def Settles (s : ByteStream) : Prop :=
  ∃ n, (∀ i ≥ n, s i = some 0#8) ∨ (∀ i ≥ n, s i = some 0xFF#8) ∨ ∀ i ≥ n, s i = none

section End

variable {s : ByteStream} {txEcho v : Byte} {n : Nat} {f : Counts → Nat}

/-- How far the receiver is from the end, when a byte that is no key comes from place `n` on and `f` counts it. -/
def remaining (n : Nat) (f : Counts → Nat) (x : Spot Nat) : Nat := 31 * (n - x.2) + (30 - f x.1)

/-- Every pass brings the receiver closer to the end. -/
theorem Skips.remaining_lt (hv : ¬isReplyKey v) (hf : ∀ c : Counts, c.Waiting → f c < 30 ∧ f (c.read v) = f c + 1)
    (htail : ∀ i ≥ n, s i = some v ∨ s i = none) {x y : Spot Nat} (h : Skips (streamI2c s) txEcho x y) :
    remaining n f y < remaining n f x := by
  have hplace := h.place_lt.1
  unfold remaining
  rcases Nat.lt_or_ge x.2 n with hlt | hge
  · omega
  · have hkey : ∀ {b : Vector Byte 1} {q : Nat}, (streamI2c s).rd 1 x.2 = (some b, q) → b[0] = v := by
      intro b q hrd
      obtain ⟨hb, -⟩ := rd_one_iff.mp hrd
      rcases htail _ hge with h | h
      · exact Option.some.inj (hb.symm.trans h)
      · cases hb.symm.trans h
    cases h with
    | noKey hwait hrd _ =>
      obtain ⟨hlt, hgrow⟩ := hf _ hwait
      rw [hkey hrd]
      simp only [hgrow] at hplace ⊢
      omega
    | foreign _ hrd hk => exact absurd (hkey hrd ▸ hk) hv
    | garbled hhead =>
      cases hhead with
      | mk _ hrd hk => exact absurd (hkey hrd ▸ hk) hv

theorem receiver_ends_of (hv : ¬isReplyKey v) (hf : ∀ c : Counts, c.Waiting → f c < 30 ∧ f (c.read v) = f c + 1)
    (htail : ∀ i ≥ n, s i = some v ∨ s i = none) (rx : Msg) (p : Nat) :
    ∃ fuel res, get15BytesCommProtocolReply (streamI2c s) fuel rx txEcho p = some res := by
  have hcloser : ∀ t u : RxState Nat, replyStep (streamI2c s) txEcho t = .inl u →
      remaining n f u.spot < remaining n f t.spot := by
    intro t u htu
    rcases replyStep_cases (streamI2c s) txEcho t with ⟨w, hw, hskip⟩ | hw | ⟨w, hw⟩ | ⟨msg, w, -, hw, -⟩
    · cases htu.symm.trans hw
      exact hskip.remaining_lt hv hf htail
    · cases htu.symm.trans hw
    · cases htu.symm.trans hw
    · cases htu.symm.trans hw
  obtain ⟨res, hres⟩ := loop_terminates (fun t : RxState Nat => remaining n f t.spot) hcloser (RxState.start rx p)
  exact ⟨_, res, hres⟩

/-- The receiver ends on every stream that settles. -/
theorem receiver_ends (hs : Settles s) (rx : Msg) (p : Nat) :
    ∃ fuel res, get15BytesCommProtocolReply (streamI2c s) fuel rx txEcho p = some res := by
  have hzero : ∀ c : Counts, c.Waiting → c.zero < 30 ∧ (c.read 0#8).zero = c.zero + 1 := fun _ h => ⟨h.2, rfl⟩
  have hff : ∀ c : Counts, c.Waiting → c.ff < 30 ∧ (c.read 0xFF#8).ff = c.ff + 1 := fun _ h => ⟨h.1, rfl⟩
  obtain ⟨n, h | h | h⟩ := hs
  · exact receiver_ends_of (by decide) hzero (fun i hi => Or.inl (h i hi)) rx p
  · exact receiver_ends_of (by decide) hff (fun i hi => Or.inl (h i hi)) rx p
  · exact receiver_ends_of (by decide) hzero (fun i hi => Or.inr (h i hi)) rx p

end End

/-- For any noise and any valid reply: the reply is found, whatever comes behind it, exactly when no key is left over at
the end of the noise and a reply with the expected echo 0xFF reports no error; and the receiver ends on every stream that
settles. -/
theorem resync_iff (txEcho : Byte) (noise : List Byte) (reply : Msg) (hn : Noise txEcho noise)
    (hr : ValidReply txEcho reply) :
    (Resyncs txEcho noise reply ↔ unpairedKey noise = none ∧
      (txEcho = systemStatusEchoKey → reply.get 2 = 0#8 ∧ reply.get 5 = 0#8)) ∧
    ∀ s, Settles s → ∀ (rx : Msg) (p : Nat),
      ∃ fuel res, get15BytesCommProtocolReply (streamI2c s) fuel rx txEcho p = some res := by
  refine ⟨⟨fun h => ⟨paired_of_resyncs hn hr h, (messageRc_reply hr).mp (messageRc_of_resyncs h)⟩, ?_⟩,
    fun s hs rx p => receiver_ends hs rx p⟩
  rintro ⟨hpair, hst⟩
  exact resyncs_of_paired hn hr hpair ((messageRc_reply hr).mpr hst)

/-! ### A key before the reply -/

theorem noise_singleton {txEcho b : Byte} : Noise txEcho [b] where
  zero h := absurd h.length_le (by simp)
  ff h := absurd h.length_le (by simp)
  key _ _ h := absurd h.length_le (by simp)

/-- A report for echo 1. -/
def benchReply : Msg := frame 0x52#8 0x01#8 benchRest

theorem benchReply_valid : ValidReply 0x01#8 benchReply := ⟨by decide, by decide, by decide⟩

theorem resync_iff_bench : Resyncs 0x01#8 [0x10#8] benchReply :=
  (resync_iff 0x01#8 [0x10#8] benchReply noise_singleton benchReply_valid).1.mpr ⟨by decide, by decide⟩

/-- A single stray key before the reply loses it. -/
theorem not_resync : ¬∀ (txEcho : Byte) (noise : List Byte) (reply : Msg), Noise txEcho noise → ValidReply txEcho reply →
    Resyncs txEcho noise reply := by
  intro h
  have hpair := paired_of_resyncs noise_singleton benchReply_valid
    (h 0x01#8 [reportKey] benchReply noise_singleton benchReply_valid)
  revert hpair
  decide

end Lan80xx.Poe
