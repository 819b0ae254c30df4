import Lan80xx.Poe.Firmware

/-!
# PoE controller: what a firmware download has done

- `imageLines`, `WellFormed`: the lines of an image, by its line feeds alone;
- `Complete`: all of them have been sent, each one has been acknowledged, and the end of the transfer too;
- `Course`: an image and a controller for which the loop stays inside its bounds and does not stop too early;
- `download_outcome`: a download either fails or is complete exactly for these.
-/

namespace Lan80xx.Poe

open RegBus Loop

variable {H : Type}

/-! ## Lines of an image -/

/-- An S3 or S7 line. -/
def IsDataLine (l : List Byte) : Prop := l.take 2 = [ascii 'S', ascii '3'] ∨ l.take 2 = [ascii 'S', ascii '7']

instance : DecidablePred IsDataLine := fun _ => inferInstanceAs (Decidable (_ ∨ _))

/-- An S0 line. -/
def IsHeaderLine (l : List Byte) : Prop := l.take 2 = [ascii 'S', ascii '0']

/-- The S3 and S7 lines of the image, each with its line feed. -/
def imageLines (image : List Byte) : List (List Byte) :=
  ((image.splitOn lf).filter fun l => IsDataLine l).map (· ++ [lf])

/-- There are no other lines than S0, S3 and S7 lines, and blank ones. -/
def WellFormed (image : List Byte) : Prop := ∀ l ∈ image.splitOn lf, l = [] ∨ IsHeaderLine l ∨ IsDataLine l

section Lines

variable {signed : Bool} {image text rest : List Byte} {b : Byte}

theorem splitOn_append (h : lf ∉ text) :
    (text ++ rest).splitOn lf = (rest.splitOn lf).modifyHead (text ++ ·) := by
  induction text with
  | nil =>
    obtain ⟨l, ls, hl⟩ := List.exists_cons_of_ne_nil (List.splitOn_ne_nil lf rest)
    simp [hl]
  | cons c text ih =>
    have hc : (c == lf) = false := by
      rw [beq_eq_false_iff_ne]
      exact fun h' => h (by simp [h'])
    obtain ⟨l, ls, hl⟩ := List.exists_cons_of_ne_nil (List.splitOn_ne_nil lf rest)
    rw [List.cons_append, List.splitOn_cons_eq_if_modifyHead, hc, ih fun h' => h (List.mem_cons_of_mem c h'), hl]
    simp

theorem splitOn_lf_cons : (lf :: rest).splitOn lf = [] :: rest.splitOn lf := by
  rw [List.splitOn_cons_eq_if_modifyHead]
  simp

theorem splitOn_line (h : lf ∉ text) : (text ++ lf :: rest).splitOn lf = text :: rest.splitOn lf := by
  rw [splitOn_append h, splitOn_lf_cons]
  simp

theorem not_isDataLine_nil : ¬IsDataLine [] := by
  simp [IsDataLine]

theorem imageLines_line (h : lf ∉ text) (hd : IsDataLine text) :
    imageLines (text ++ lf :: rest) = (text ++ [lf]) :: imageLines rest := by
  simp [imageLines, splitOn_line h, hd]

theorem wellFormed_line (h : lf ∉ text) (hd : IsHeaderLine text ∨ IsDataLine text) :
    WellFormed (text ++ lf :: rest) ↔ WellFormed rest := by
  simp [WellFormed, splitOn_line h, hd]

theorem imageLines_lf : imageLines (lf :: rest) = imageLines rest := by
  simp [imageLines, splitOn_lf_cons, not_isDataLine_nil]

theorem wellFormed_lf : WellFormed (lf :: rest) ↔ WellFormed rest := by
  simp [WellFormed, splitOn_lf_cons]

theorem skipLf_cases (image : List Byte) : skipLf image = image ∨ image = lf :: skipLf image := by
  cases image with
  | nil => exact Or.inl rfl
  | cons b rest =>
    by_cases hb : b = lf
    · exact Or.inr (by simp [skipLf, hb])
    · exact Or.inl (by simp [skipLf, hb])

theorem imageLines_skipLf (image : List Byte) : imageLines (skipLf image) = imageLines image := by
  rcases skipLf_cases image with h | h
  · rw [h]
  · conv_rhs => rw [h, imageLines_lf]

theorem wellFormed_skipLf (image : List Byte) : WellFormed (skipLf image) ↔ WellFormed image := by
  rcases skipLf_cases image with h | h
  · rw [h]
  · conv_rhs => rw [h, wellFormed_lf]

theorem skipLf_length_le (image : List Byte) : (skipLf image).length ≤ image.length := by
  rcases skipLf_cases image with h | h
  · rw [h]
  · conv_rhs => rw [h, List.length_cons]
    omega

theorem not_isDataLine_cons (hb : b ≠ ascii 'S') : ¬IsDataLine (b :: rest) := by
  simp [IsDataLine, hb]

theorem IsHeaderLine.append (h : IsHeaderLine text) : IsHeaderLine (text ++ rest) := by
  unfold IsHeaderLine at h ⊢
  rw [List.take_append_of_le_length, h]
  have hlen := congrArg List.length h
  simp only [List.length_take, List.length_cons, List.length_nil] at hlen
  omega

theorem IsHeaderLine.not_isDataLine (h : IsHeaderLine text) : ¬IsDataLine text := by
  unfold IsHeaderLine at h
  unfold IsDataLine
  rw [h]
  decide

/-- A header line whose end is kept, whatever ends it. -/
theorem imageLines_header (h : lf ∉ text) (hh : IsHeaderLine text) (hb : b ≠ ascii 'S') :
    imageLines (text ++ b :: rest) = imageLines (b :: rest) := by
  have hpiece : ∀ l, l = [] ∨ l.head? = some b → ¬IsDataLine (text ++ l) ∧ ¬IsDataLine l := by
    intro l hl
    refine ⟨hh.append.not_isDataLine, ?_⟩
    rcases hl with rfl | hl
    · exact not_isDataLine_nil
    · cases l with
      | nil => exact not_isDataLine_nil
      | cons c l =>
        cases hl
        exact not_isDataLine_cons hb
  obtain ⟨l, ls, hl⟩ := List.exists_cons_of_ne_nil (List.splitOn_ne_nil lf (b :: rest))
  have hhead : l = [] ∨ l.head? = some b := by
    rw [List.splitOn_cons_eq_if_modifyHead] at hl
    split at hl
    · exact Or.inl (List.cons.inj hl).1.symm
    · obtain ⟨l', ls', hl'⟩ := List.exists_cons_of_ne_nil (List.splitOn_ne_nil lf rest)
      rw [hl'] at hl
      have hl := (List.cons.inj hl).1
      exact Or.inr (by rw [← hl]; rfl)
  obtain ⟨h₁, h₂⟩ := hpiece l hhead
  simp [imageLines, splitOn_append h, hl, h₁, h₂]

/-! ### The next line -/

theorem scanLine_eq_some {bytes : List Byte} (h : scanLine signed bytes = some (text, rest)) :
    bytes = text ++ rest ∧ (∀ c ∈ text, inLine signed c) ∧ ∃ b r, rest = b :: r ∧ ¬inLine signed b := by
  induction bytes generalizing text rest with
  | nil => cases h
  | cons b bytes ih =>
    unfold scanLine at h
    split at h
    · next hb =>
      rw [Option.map_eq_some_iff] at h
      obtain ⟨⟨text', rest'⟩, hscan, heq⟩ := h
      cases heq
      obtain ⟨hsplit, htext, hend⟩ := ih hscan
      refine ⟨by rw [hsplit]; rfl, fun c hc => ?_, hend⟩
      rcases List.mem_cons.mp hc with rfl | hc
      · exact hb
      · exact htext c hc
    · next hb =>
      cases h
      exact ⟨rfl, fun _ hc => absurd hc List.not_mem_nil, b, bytes, rfl, hb⟩

theorem not_inLine_lf : ¬inLine signed lf := by
  simp [inLine]

theorem lf_not_mem (h : ∀ c ∈ text, inLine signed c) : lf ∉ text := fun hmem => not_inLine_lf (h lf hmem)

/-- The letters and digits that begin a line do not end it. -/
theorem inLine_ascii (signed : Bool) {b : Byte} (h : b = ascii 'S' ∨ b = ascii '0' ∨ b = ascii '3' ∨ b = ascii '7') :
    inLine signed b := by
  rcases h with rfl | rfl | rfl | rfl <;> cases signed <;> decide

/-- A scan that begins with two characters of a line takes both. -/
theorem scanLine_take_two {b c : Byte} {bytes : List Byte} (hb : inLine signed b) (hc : inLine signed c)
    (h : scanLine signed (b :: c :: bytes) = some (text, rest)) : text.take 2 = [b, c] := by
  simp only [scanLine, hb, hc, if_true, Option.map_map] at h
  rw [Option.map_eq_some_iff] at h
  obtain ⟨r, -, heq⟩ := h
  cases heq
  rfl

/-- What is known of a record, by its kind. -/
theorem nextRecord_line {r : List Byte} (h : nextRecord signed image = .line text r) :
    ∃ b, skipLf image = text ++ b :: r ∧ ¬inLine signed b ∧ lf ∉ text ∧ IsDataLine text := by
  unfold nextRecord at h
  split at h
  · cases h
  next b bytes hskip =>
  split at h
  · cases h
  next hS =>
  cases bytes with
  | nil => cases h
  | cons c bytes =>
    simp only at h
    split at h
    · unfold headerRecord at h
      split at h <;> cases h
    split at h
    · next hc =>
      unfold dataRecord at h
      split at h
      · cases h
      next text' rest hscan =>
      split at h
      · cases h
      cases h
      obtain ⟨hsplit, htext, b', r', rfl, hb'⟩ := scanLine_eq_some hscan
      have hS' : b = ascii 'S' := not_not.mp hS
      have htwo := scanLine_take_two (inLine_ascii signed (Or.inl hS')) (inLine_ascii signed (Or.inr (Or.inr hc))) hscan
      refine ⟨b', by rw [hskip, hsplit]; rfl, hb', lf_not_mem htext, ?_⟩
      unfold IsDataLine
      rw [htwo, hS']
      rcases hc with rfl | rfl
      · exact Or.inl rfl
      · exact Or.inr rfl
    · cases h

theorem nextRecord_header {r : List Byte} (h : nextRecord signed image = .header r) :
    ∃ text b r', skipLf image = text ++ r ∧ r = b :: r' ∧ ¬inLine signed b ∧ lf ∉ text ∧ IsHeaderLine text := by
  unfold nextRecord at h
  split at h
  · cases h
  next b bytes hskip =>
  split at h
  · cases h
  next hS =>
  cases bytes with
  | nil => cases h
  | cons c bytes =>
    simp only at h
    split at h
    · next hc =>
      unfold headerRecord at h
      split at h
      · cases h
      next text rest hscan =>
      cases h
      obtain ⟨hsplit, htext, b', r', rfl, hb'⟩ := scanLine_eq_some hscan
      have hS' : b = ascii 'S' := not_not.mp hS
      have htwo := scanLine_take_two (inLine_ascii signed (Or.inl hS')) (inLine_ascii signed (Or.inr (Or.inl hc))) hscan
      refine ⟨text, b', r', by rw [hskip, hsplit], rfl, hb', lf_not_mem htext, ?_⟩
      rw [IsHeaderLine, htwo, hS', hc]
    split at h
    · unfold dataRecord at h
      split at h
      · cases h
      · split at h <;> cases h
    · cases h

end Lines

/-! ## What a download has done -/

/-- Each line has been acknowledged by "T*", the last one by "TP". -/
def Acked (log : List (List Byte × List Byte)) : Prop :=
  ∃ init last, log = init ++ [last] ∧ (∀ e ∈ init, e.2.take 2 = [ascii 'T', ascii '*']) ∧
    last.2.take 2 = [ascii 'T', ascii 'P']

/-- The lines of a well-formed image have been sent in order, each once, and acknowledged. -/
structure Complete (image : List Byte) (log : List (List Byte × List Byte)) : Prop where
  lines : log.map Prod.fst = imageLines image
  acked : Acked log
  wellFormed : WellFormed image

/-- An error, with a chip state that is not "found". -/
def Failed (d : Download H) : Prop :=
  ∃ rc, d.ended = .rc rc ∧ rc ≠ .ok ∧ d.inst.conf.chipState ≠ .chipsetFound

/-- "RST" cannot be written, or no status follows it. -/
def ResetFails (bus : I2c H) (s : Inst H) : Prop :=
  (pd69200Wr bus [ascii 'R', ascii 'S', ascii 'T'] s).1 = false ∨
    ∃ fuel r, get15BytesCommProtocolReply bus fuel (Vector.replicate 15 0#8) 0xFF#8
      (pd69200Wr bus [ascii 'R', ascii 'S', ascii 'T'] s).2.hw = some (.error, r)

/-- A line of the image that is not too long, and its line feed. -/
def LineAt (signed : Bool) (image text rest : List Byte) : Prop :=
  inImage signed image ∧ nextRecord signed image = .line text rest ∧ skipLf image = text ++ lf :: rest

/-- The rest of the image can be sent to the controller. A line ends in a line feed. Where the controller acknowledges it
as the last one, all replies have been received, and no other record follows; where the image ends before that, or has a
malformed line, the reset fails. -/
inductive Course (bus : I2c H) (signed : Bool) : LoadState H → Prop
  | header {s rest} : inImage signed s.rest → nextRecord signed s.rest = .header rest →
      Course bus signed { s with rest } → Course bus signed s
  | acked {s text rest} : LineAt signed s.rest text rest → startsWith (sendLine bus text rest s).buf ['T', '*'] →
      Course bus signed (sendLine bus text rest s) → Course bus signed s
  | refused {s text rest} : LineAt signed s.rest text rest → ¬startsWith (sendLine bus text rest s).buf ['T', '*'] →
      ¬startsWith (sendLine bus text rest s).buf ['T', 'P'] → Course bus signed s
  | finished {s text rest} : LineAt signed s.rest text rest → startsWith (sendLine bus text rest s).buf ['T', 'P'] →
      (ResetFails bus (sendLine bus text rest s).inst ∨
        Acked (sendLine bus text rest s).log ∧ imageLines rest = [] ∧ WellFormed rest) → Course bus signed s
  | stopped {s} : ¬inImage signed s.rest ∨ nextRecord signed s.rest = .malformed → ResetFails bus s.inst →
      Course bus signed s

/-- How the loop may be left. -/
structure GoodEnd (bus : I2c H) (image : List Byte) (e : LoadEnd) (t : LoadState H) : Prop where
  inside : e ≠ .fault
  inOrder : t.log.map Prod.fst <+: imageLines image
  complete : e = .stopped → ResetFails bus t.inst ∨ Complete image t.log

/-! ### Replies -/

section Replies

variable {bus : I2c H} {buf : Msg}

theorem put_zero (buf : Msg) (b : Byte) (data : List Byte) : (put buf 0 (b :: data)).byte 0 = b := by
  simp [put, Msg.byte]

theorem put_one_zero (buf : Msg) (data : List Byte) : (put buf 1 data).byte 0 = buf.byte 0 := by
  simp [put, Msg.byte]

theorem put_one_one (buf : Msg) (b : Byte) (data : List Byte) : (put buf 1 (b :: data)).byte 1 = b := by
  simp [put, Msg.byte]

theorem startsWith_two (buf : Msg) (c d : Char) : startsWith buf [c, d] ↔ buf.byte 0 = ascii c ∧ buf.byte 1 = ascii d := by
  have htwo : buf.toList.take 2 = [buf[0], buf[1]] := by
    apply List.ext_getElem
    · simp
    · intro i h₁ _
      simp only [List.length_take] at h₁
      obtain rfl | rfl : i = 0 ∨ i = 1 := by omega
      · simp
      · simp
  simp [startsWith, htwo, Msg.byte]

/-- The byte that ends the wait for a reply. -/
theorem firmUpdateFirst_received {n : Nat} {buf' : Msg} {data : List Byte} {h h' : H}
    (hf : firmUpdateFirst bus n buf h = ((true, buf', data), h')) : data = [] ∨ ∃ b, data = [b] ∧ buf'.byte 0 = b := by
  induction n generalizing buf h with
  | zero =>
    cases hf
    exact Or.inl rfl
  | succ n ih =>
    unfold firmUpdateFirst at hf
    split at hf
    · cases hf
    next got h₁ hrd =>
    split at hf
    · exact ih hf
    · simp only [Prod.mk.injEq, true_and] at hf
      obtain ⟨⟨hbuf, rfl⟩, -⟩ := hf
      have hlen := bus.read_length 1 h got (by rw [hrd])
      cases got with
      | nil => exact Or.inl rfl
      | cons b rest =>
        have hrest : rest = [] := by
          rw [List.length_cons] at hlen
          exact List.length_eq_zero_iff.mp (by omega)
        subst hrest
        exact Or.inr ⟨b, rfl, by rw [← hbuf, put_zero]⟩

/-- What has been received stands in the buffer. -/
theorem firmUpdateRd_received {size : Nat} {h : H} {c d : Byte}
    (hgot : (firmUpdateRd bus size buf h).1.2.take 2 = [c, d]) :
    (firmUpdateRd bus size buf h).1.1.byte 0 = c ∧ (firmUpdateRd bus size buf h).1.1.byte 1 = d := by
  unfold firmUpdateRd at hgot ⊢
  rcases hf : firmUpdateFirst bus 40 buf h with ⟨⟨_ | _, buf', data⟩, h'⟩
  · simp [hf] at hgot
  simp only [hf] at hgot ⊢
  by_cases hz : buf'.byte 0 = 0#8
  · simp [hz] at hgot
  simp only [hz, if_false] at hgot ⊢
  rcases hrd : bus.read (size - 1) h' with ⟨_ | data', h''⟩
  · simp only [hrd] at hgot
    rcases firmUpdateFirst_received hf with rfl | ⟨b, rfl, -⟩ <;> simp at hgot
  simp only [hrd] at hgot ⊢
  rcases firmUpdateFirst_received hf with rfl | ⟨b, rfl, hb⟩
  · simp at hgot
  · cases data' with
    | nil => simp at hgot
    | cons b' data' =>
      simp only [reduceCtorEq, if_false, List.cons_append, List.nil_append, List.take_succ_cons, List.take_zero,
        List.cons.injEq, and_true] at hgot
      obtain ⟨rfl, rfl⟩ := hgot
      exact ⟨(put_one_zero _ _).trans hb, put_one_one _ _ _⟩

end Replies

/-! ### The loop -/

section Load

variable {bus : I2c H} {signed : Bool} {image text rest : List Byte} {x t : LoadState H} {e : LoadEnd}

@[simp] theorem sendLine_log_fst :
    (sendLine bus text rest x).log.map Prod.fst = x.log.map Prod.fst ++ [text ++ [lf]] := by
  simp [sendLine]

/-- A line that is answered by "TP" has received it only where the buffer says so. -/
theorem sendLine_received {c d : Char} (h : ∃ l got, (sendLine bus text rest x).log = x.log ++ [(l, got)] ∧
    got.take 2 = [ascii c, ascii d]) : startsWith (sendLine bus text rest x).buf [c, d] := by
  obtain ⟨l, got, hlog, hgot⟩ := h
  rw [startsWith_two]
  have hlast := List.append_cancel_left hlog
  cases hlast
  exact firmUpdateRd_received hgot

/-- The rest begins behind the end of a line that is no line feed. -/
def Stuck (signed : Bool) (rest : List Byte) : Prop := ∃ b r, rest = b :: r ∧ b ≠ lf ∧ ¬inLine signed b

/-- What has been sent are the first lines of the image, and the other ones are in the rest. -/
structure LoadInv (signed : Bool) (image : List Byte) (x : LoadState H) : Prop where
  lines : imageLines image = x.log.map Prod.fst ++ imageLines x.rest
  wellFormed : Stuck signed x.rest ∨ (WellFormed image ↔ WellFormed x.rest)
  running : ∀ r ∈ x.log, r.2.take 2 ≠ [ascii 'T', ascii 'P']

theorem LoadInv.not_acked (h : LoadInv signed image x) : ¬Acked x.log := by
  rintro ⟨init, last, hlog, -, hlast⟩
  exact h.running last (by simp [hlog]) hlast

theorem not_inLine_ne_S {b : Byte} (h : ¬inLine signed b) : b ≠ ascii 'S' := by
  rintro rfl
  exact h (inLine_ascii signed (Or.inl rfl))

/-- Behind a line that is cut off, no line follows. -/
theorem Stuck.not_line (h : Stuck signed rest) {text r : List Byte} : nextRecord signed rest ≠ .line text r := by
  obtain ⟨b, bytes, rfl, hlf, hb⟩ := h
  have hS := not_inLine_ne_S hb
  simp [nextRecord, skipLf, hlf, hS]

theorem Stuck.not_header (h : Stuck signed rest) {r : List Byte} : nextRecord signed rest ≠ .header r := by
  obtain ⟨b, bytes, rfl, hlf, hb⟩ := h
  have hS := not_inLine_ne_S hb
  simp [nextRecord, skipLf, hlf, hS]

theorem LoadInv.header (h : LoadInv signed image x) (hrec : nextRecord signed x.rest = .header rest) :
    LoadInv signed image { x with rest } := by
  obtain ⟨text, b, r, hskip, rfl, hb, hlf, hh⟩ := nextRecord_header hrec
  constructor
  · rw [h.lines, ← imageLines_skipLf x.rest, hskip, imageLines_header hlf hh (not_inLine_ne_S hb)]
  · by_cases hend : b = lf
    · subst hend
      have hwf := h.wellFormed.resolve_left fun hst => hst.not_header hrec
      right
      change _ ↔ WellFormed (lf :: r)
      rw [hwf, ← wellFormed_skipLf x.rest, hskip, wellFormed_line hlf (Or.inl hh), wellFormed_lf]
    · exact Or.inl ⟨b, r, rfl, hend, hb⟩
  · exact h.running

/-- The lines after one more has been sent. -/
theorem LoadInv.sent (h : LoadInv signed image x) (bus : I2c H) (hline : LineAt signed x.rest text rest) :
    imageLines image = (sendLine bus text rest x).log.map Prod.fst ++ imageLines rest ∧
      (WellFormed image ↔ WellFormed rest) := by
  obtain ⟨-, hrec, hskip⟩ := hline
  obtain ⟨-, -, -, hlf, hd⟩ := nextRecord_line hrec
  have hwf := h.wellFormed.resolve_left fun hst => hst.not_line hrec
  constructor
  · rw [h.lines, ← imageLines_skipLf x.rest, hskip, imageLines_line hlf hd, sendLine_log_fst, List.append_assoc]
    rfl
  · rw [hwf, ← wellFormed_skipLf x.rest, hskip, wellFormed_line hlf (Or.inr hd)]

theorem LoadInv.acked (h : LoadInv signed image x) (hline : LineAt signed x.rest text rest)
    (hrep : startsWith (sendLine bus text rest x).buf ['T', '*']) : LoadInv signed image (sendLine bus text rest x) := by
  obtain ⟨hlines, hwf⟩ := h.sent bus hline
  refine ⟨hlines, Or.inr hwf, fun r hr hgot => ?_⟩
  rcases List.mem_append.mp hr with hr | hr
  · exact h.running r hr hgot
  · rw [List.mem_singleton] at hr
    subst hr
    have hTP : startsWith (sendLine bus text rest x).buf ['T', 'P'] := sendLine_received ⟨_, _, rfl, hgot⟩
    rw [startsWith_two] at hrep hTP
    have heq := hrep.2.symm.trans hTP.2
    revert heq
    decide

/-! ### Passes -/

theorem loadPass_header (bus : I2c H) (hin : inImage signed x.rest) (hrec : nextRecord signed x.rest = .header rest) :
    loadPass bus signed x = .inl { x with rest } := by
  simp [loadPass, hin, hrec]

theorem loadPass_line (bus : I2c H) (hin : inImage signed x.rest) (hrec : nextRecord signed x.rest = .line text rest) :
    loadPass bus signed x =
      if startsWith (sendLine bus text rest x).buf ['T', '*'] then .inl (sendLine bus text rest x)
      else if startsWith (sendLine bus text rest x).buf ['T', 'P'] then .inr (.stopped, sendLine bus text rest x)
      else .inr (.noAck, sendLine bus text rest x) := by
  simp [loadPass, hin, hrec]

theorem loadPass_stopped (bus : I2c H) (h : ¬inImage signed x.rest ∨ nextRecord signed x.rest = .malformed) :
    loadPass bus signed x = .inr (.stopped, x) := by
  unfold loadPass
  rcases h with h | h
  · rw [if_neg h]
  · rw [h]
    split <;> rfl

theorem loadPass_fault (bus : I2c H) (hin : inImage signed x.rest) (hrec : nextRecord signed x.rest = .fault) :
    loadPass bus signed x = .inr (.fault, x) := by
  simp [loadPass, hin, hrec]

/-- What stands behind the next record is shorter. -/
theorem nextRecord_length {r : List Byte}
    (h : nextRecord signed image = .header r ∨ ∃ text, nextRecord signed image = .line text r) :
    r.length < image.length := by
  have hle := skipLf_length_le image
  rcases h with h | ⟨text, h⟩
  · obtain ⟨text, b, r', hskip, rfl, -, -, hh⟩ := nextRecord_header h
    have hpos : text ≠ [] := by
      rintro rfl
      simp [IsHeaderLine] at hh
    have hlen := congrArg List.length hskip
    have := List.length_pos_iff.mpr hpos
    simp only [List.length_append, List.length_cons] at hlen ⊢
    omega
  · obtain ⟨b, hskip, -, -, -⟩ := nextRecord_line h
    have hlen := congrArg List.length hskip
    simp only [List.length_append, List.length_cons] at hlen
    omega

theorem record_cases (signed : Bool) (bytes : List Byte) :
    (∃ rest, inImage signed bytes ∧ nextRecord signed bytes = .header rest) ∨
    (∃ text rest, inImage signed bytes ∧ nextRecord signed bytes = .line text rest) ∨
    (¬inImage signed bytes ∨ nextRecord signed bytes = .malformed) ∨
    (inImage signed bytes ∧ nextRecord signed bytes = .fault) := by
  by_cases hin : inImage signed bytes
  swap
  · exact Or.inr (Or.inr (Or.inl (Or.inl hin)))
  cases hrec : nextRecord signed bytes with
  | header r => exact Or.inl ⟨r, hin, rfl⟩
  | line text r => exact Or.inr (Or.inl ⟨text, r, hin, rfl⟩)
  | malformed => exact Or.inr (Or.inr (Or.inl (Or.inr rfl)))
  | fault => exact Or.inr (Or.inr (Or.inr ⟨hin, rfl⟩))

/-- The chip state stays, and lines are only added to the log. -/
def Grows (x t : LoadState H) : Prop :=
  x.log.map Prod.fst <+: t.log.map Prod.fst ∧ t.inst.conf.chipState = x.inst.conf.chipState

theorem pd69200Wr_chipState (bus : I2c H) (data : List Byte) (s : Inst H) :
    (pd69200Wr bus data s).2.conf.chipState = s.conf.chipState := by
  unfold pd69200Wr
  split <;> rfl

theorem sendLine_grows : Grows x (sendLine bus text rest x) := by
  constructor
  · rw [sendLine_log_fst]
    exact List.prefix_append _ _
  · exact pd69200Wr_chipState bus (text ++ [lf]) x.inst

/-- What a pass does to the rest and the log, whether the loop goes on or not. -/
theorem loadPass_grows (h : loadPass bus signed x = .inl t ∨ loadPass bus signed x = .inr (e, t)) : Grows x t := by
  have hrefl : Grows x x := ⟨List.prefix_refl _, rfl⟩
  rcases record_cases signed x.rest with ⟨r, hin, hrec⟩ | ⟨text, r, hin, hrec⟩ | hstop | ⟨hin, hrec⟩
  · rw [loadPass_header bus hin hrec] at h
    rcases h with h | h <;> cases h
    exact hrefl
  · rw [loadPass_line bus hin hrec] at h
    split at h
    · rcases h with h | h <;> cases h
      exact sendLine_grows
    split at h <;> rcases h with h | h <;> cases h <;> exact sendLine_grows
  · rw [loadPass_stopped bus hstop] at h
    rcases h with h | h <;> cases h
    exact hrefl
  · rw [loadPass_fault bus hin hrec] at h
    rcases h with h | h <;> cases h
    exact hrefl

theorem loadPass_length (h : loadPass bus signed x = .inl t) : t.rest.length < x.rest.length := by
  rcases record_cases signed x.rest with ⟨r, hin, hrec⟩ | ⟨text, r, hin, hrec⟩ | hstop | ⟨hin, hrec⟩
  · rw [loadPass_header bus hin hrec] at h
    cases h
    exact nextRecord_length (Or.inl hrec)
  · rw [loadPass_line bus hin hrec] at h
    split at h
    · cases h
      exact nextRecord_length (Or.inr ⟨text, hrec⟩)
    · split at h <;> cases h
  · rw [loadPass_stopped bus hstop] at h
    cases h
  · rw [loadPass_fault bus hin hrec] at h
    cases h

/-- The loop over the lines ends within the fuel that the download gives it. -/
theorem load_ends (bus : I2c H) (signed : Bool) (x : LoadState H) :
    ∃ b, loop (loadPass bus signed) (x.rest.length + 1) x = some b :=
  loop_terminates (fun s => s.rest.length) (fun _ _ => loadPass_length) x

theorem load_grows {b : LoadEnd × LoadState H} (h : Leads (loadPass bus signed) x b) : Grows x b.2 := by
  refine h.rel (f := Prod.snd) (fun s t u h₁ h₂ => ?_) (fun s t h => ?_) fun s b h => ?_
  · exact ⟨h₁.1.trans h₂.1, h₂.2.trans h₁.2⟩
  · exact loadPass_grows (e := .fault) (Or.inl h)
  · exact loadPass_grows (Or.inr h)

/-- A line that does not end in a line feed is none of the lines of the image. -/
theorem lf_of_prefix {b : Byte} (hd : IsDataLine text) (hlf : lf ∉ text)
    (h : [text ++ [lf]] <+: imageLines (text ++ b :: rest)) : b = lf := by
  by_contra hb
  obtain ⟨l, ls, hl⟩ := List.exists_cons_of_ne_nil (List.splitOn_ne_nil lf rest)
  have hbeq : (b == lf) = false := beq_eq_false_iff_ne.mpr hb
  have hd' : IsDataLine (text ++ b :: l) := by
    unfold IsDataLine at hd ⊢
    have hlen : 2 ≤ text.length := by
      rcases hd with hd | hd
      all_goals
        have := congrArg List.length hd
        simp only [List.length_take, List.length_cons, List.length_nil] at this
        omega
    rwa [List.take_append_of_le_length hlen]
  simp only [imageLines, splitOn_append hlf, List.splitOn_cons_eq_if_modifyHead, hbeq, hl, Bool.false_eq_true, if_false,
    List.modifyHead_cons] at h
  simp only [List.filter_cons, hd', decide_true, if_true, List.map_cons, List.cons_prefix_cons] at h
  have heq := h.1
  rw [List.append_assoc] at heq
  have htail := List.append_cancel_left heq
  simp only [List.cons_append, List.cons.injEq] at htail
  exact hb htail.1.symm

/-- The loop is left well exactly on a good course. -/
theorem course_iff (hinv : LoadInv signed image x) :
    Course bus signed x ↔ ∀ e t, Leads (loadPass bus signed) x (e, t) → GoodEnd bus image e t := by
  constructor
  · intro hc
    induction hc with
    | header hin hrec _ ih =>
      intro e t hl
      rw [leads_of_pass (loadPass_header bus hin hrec)] at hl
      exact ih (hinv.header hrec) e t hl
    | acked hline hrep _ ih =>
      intro e t hl
      have hpass := loadPass_line bus hline.1 hline.2.1
      rw [if_pos hrep] at hpass
      rw [leads_of_pass hpass] at hl
      exact ih (hinv.acked hline hrep) e t hl
    | refused hline hrep hrep' =>
      intro e t hl
      have hpass := loadPass_line bus hline.1 hline.2.1
      rw [if_neg hrep, if_neg hrep'] at hpass
      cases (leads_of_stop hpass).mp hl
      refine ⟨by simp, ?_, by simp⟩
      rw [(hinv.sent bus hline).1]
      exact List.prefix_append _ _
    | @finished s text rest hline hrep hend =>
      intro e t hl
      have hpass := loadPass_line bus hline.1 hline.2.1
      have hrep' : ¬startsWith (sendLine bus text rest s).buf ['T', '*'] := by
        intro h
        rw [startsWith_two] at h hrep
        have heq := h.2.symm.trans hrep.2
        revert heq
        decide
      rw [if_neg hrep', if_pos hrep] at hpass
      cases (leads_of_stop hpass).mp hl
      obtain ⟨hlines, hwf⟩ := hinv.sent bus hline
      refine ⟨by simp, ?_, fun _ => hend.imp_right fun ⟨hack, hnil, hrest⟩ => ⟨?_, hack, hwf.mpr hrest⟩⟩
      · rw [hlines]
        exact List.prefix_append _ _
      · rw [hlines, hnil, List.append_nil]
    | stopped hstop hreset =>
      intro e t hl
      cases (leads_of_stop (loadPass_stopped bus hstop)).mp hl
      refine ⟨by simp, ?_, fun _ => Or.inl hreset⟩
      rw [hinv.lines]
      exact List.prefix_append _ _
  · intro hgood
    induction hn : x.rest.length using Nat.strongRecOn generalizing x with
    | _ n ih =>
      rcases record_cases signed x.rest with ⟨r, hin, hrec⟩ | ⟨text, r, hin, hrec⟩ | hstop | ⟨hin, hrec⟩
      · have hpass := loadPass_header bus hin hrec
        have hlt : r.length < n := hn ▸ nextRecord_length (Or.inl hrec)
        refine .header hin hrec (ih _ hlt (hinv.header hrec) (fun e t hl => ?_) rfl)
        exact hgood e t ((leads_of_pass hpass).mpr hl)
      · obtain ⟨b, hskip, -, hlf, hd⟩ := nextRecord_line hrec
        have hpass := loadPass_line bus hin hrec
        have hlt : r.length < n := hn ▸ nextRecord_length (Or.inr ⟨text, hrec⟩)
        -- the line is among those that the end of the loop has sent
        have hend : b = lf := by
          obtain ⟨⟨e, t⟩, hloop⟩ := load_ends bus signed x
          have hl := Leads.of_loop hloop
          have hsent : Grows (sendLine bus text r x) t := by
            split at hpass
            · exact load_grows ((leads_of_pass hpass).mp hl)
            · split at hpass <;> cases (leads_of_stop hpass).mp hl <;> exact ⟨List.prefix_refl _, rfl⟩
          have hpre := hsent.1.trans (hgood e t hl).inOrder
          rw [sendLine_log_fst, hinv.lines, List.prefix_append_right_inj, ← imageLines_skipLf x.rest, hskip] at hpre
          exact lf_of_prefix hd hlf hpre
        subst hend
        have hline : LineAt signed x.rest text r := ⟨hin, hrec, hskip⟩
        obtain ⟨hlines, hwf⟩ := hinv.sent bus hline
        by_cases hrep : startsWith (sendLine bus text r x).buf ['T', '*']
        · rw [if_pos hrep] at hpass
          refine .acked hline hrep (ih _ hlt (hinv.acked hline hrep) (fun e t hl => ?_) rfl)
          exact hgood e t ((leads_of_pass hpass).mpr hl)
        rw [if_neg hrep] at hpass
        by_cases hrep' : startsWith (sendLine bus text r x).buf ['T', 'P']
        · rw [if_pos hrep'] at hpass
          have hg := hgood _ _ ((leads_of_stop hpass).mpr rfl)
          refine .finished hline hrep' ((hg.complete rfl).imp_right fun hcomp => ⟨hcomp.acked, ?_, ?_⟩)
          · have heq := hlines.symm.trans hcomp.lines.symm
            exact List.append_right_eq_self.mp heq
          · exact hwf.mp hcomp.wellFormed
        · exact .refused hline hrep hrep'
      · have hg := hgood _ _ ((leads_of_stop (loadPass_stopped bus hstop)).mpr rfl)
        refine .stopped hstop ((hg.complete rfl).resolve_right fun hcomp => ?_)
        exact hinv.not_acked hcomp.acked
      · have hg := hgood _ _ ((leads_of_stop (loadPass_fault bus hin hrec)).mpr rfl)
        exact absurd rfl hg.inside

end Load

/-! ## The download -/

section Download

variable {bus : I2c H} {signed : Bool} {fuel fuel' : Nat} {buf buf' : Msg} {s s' : Inst H}

theorem get15_mono {rx : Msg} {txEcho : Byte} {h : H} {r : Rc × RxState H}
    (hr : get15BytesCommProtocolReply bus fuel rx txEcho h = some r) (hle : fuel ≤ fuel') :
    get15BytesCommProtocolReply bus fuel' rx txEcho h = some r := loop_mono hr hle

theorem txRx_mono {tx : Msg} {r : (Rc × Msg) × Inst H} (hr : pd69200TxRx bus fuel tx s = some r) (hle : fuel ≤ fuel') :
    pd69200TxRx bus fuel' tx s = some r := by
  rcases hsent : isTxOk bus tx s with ⟨_ | _, u⟩
  · simp only [pd69200TxRx, hsent] at hr ⊢
    exact hr
  · simp only [pd69200TxRx, hsent] at hr ⊢
    cases hget : get15BytesCommProtocolReply bus fuel tx (sealMsg (nextSeqNum s.conf.seqNum) tx)[1] u.hw with
    | none =>
      rw [hget] at hr
      cases hr
    | some q =>
      rw [hget] at hr
      rw [get15_mono hget hle]
      exact hr

theorem txRx_chipState {tx : Msg} {r : Rc × Msg} (hr : pd69200TxRx bus fuel tx s = some (r, s')) :
    s'.conf.chipState = s.conf.chipState := by
  have hchip : (isTxOk bus tx s).2.conf.chipState = s.conf.chipState := pd69200Wr_chipState _ _ _
  rcases hsent : isTxOk bus tx s with ⟨_ | _, u⟩
  · rw [hsent] at hchip
    simp only [pd69200TxRx, hsent, Option.some.injEq, Prod.mk.injEq] at hr
    rw [← hr.2]
    exact hchip
  · rw [hsent] at hchip
    simp only [pd69200TxRx, hsent] at hr
    split at hr
    · cases hr
    · simp only [Option.some.injEq, Prod.mk.injEq] at hr
      rw [← hr.2]
      exact hchip

theorem wrAll_chipState (bus : I2c H) (data : List (List Byte)) (s : Inst H) :
    (wrAll bus data s).conf.chipState = s.conf.chipState := by
  induction data generalizing s with
  | nil => rfl
  | cons d data ih => exact (ih _).trans (pd69200Wr_chipState bus d s)

theorem bootDialogue_chipState (bus : I2c H) (buf : Msg) (s : Inst H) :
    (bootDialogue bus buf s).2.conf.chipState = s.conf.chipState := by
  have hreply : ∀ size buf (s : Inst H), (bootReply bus size buf s).2.conf.chipState = s.conf.chipState :=
    fun _ _ _ => rfl
  have hcommand : ∀ c buf (s : Inst H), (bootCommand bus c buf s).2.conf.chipState = s.conf.chipState :=
    fun c _ s => pd69200Wr_chipState bus [ascii c] s
  unfold bootDialogue
  simp only
  repeat' split
  all_goals simp only [hreply, hcommand]

theorem enterBoot_mono {r : Option Msg × Inst H} (hr : enterBoot bus fuel buf s = some r) (hle : fuel ≤ fuel') :
    enterBoot bus fuel' buf s = some r := by
  cases htx : pd69200TxRx bus fuel getSoftwareVersion s with
  | none => simp [enterBoot, htx] at hr
  | some q =>
    obtain ⟨⟨rc, m⟩, u⟩ := q
    have htx' := txRx_mono htx hle
    cases rc with
    | ok =>
      simp only [enterBoot, htx, htx'] at hr ⊢
      cases hdl : pd69200TxRx bus fuel downloadCommand u with
      | none =>
        rw [hdl] at hr
        cases hr
      | some q =>
        rw [hdl] at hr
        rw [txRx_mono hdl hle]
        exact hr
    | _ =>
      simp only [enterBoot, htx, htx'] at hr ⊢
      exact hr

theorem enterBoot_chipState {o : Option Msg} (hr : enterBoot bus fuel buf s = some (o, s')) :
    s'.conf.chipState = s.conf.chipState := by
  unfold enterBoot at hr
  split at hr
  · cases hr
  · next u htx =>
    split at hr
    · cases hr
    · next v htx' =>
      cases hr
      exact (txRx_chipState htx').trans (txRx_chipState htx)
  · next u htx =>
    have hchip := txRx_chipState htx
    cases hr
    rw [wrAll_chipState]
    exact hchip

theorem prepareLoad_mono {r : Option Msg × Inst H} (hr : prepareLoad bus fuel buf s = some r) (hle : fuel ≤ fuel') :
    prepareLoad bus fuel' buf s = some r := by
  unfold prepareLoad at hr ⊢
  cases hb : enterBoot bus fuel buf s with
  | none =>
    rw [hb] at hr
    cases hr
  | some q =>
    rw [hb] at hr
    rw [enterBoot_mono hb hle]
    exact hr

/-- The dialogue with the boot loader has one result. -/
theorem prepareLoad_unique {r r' : Option Msg × Inst H} (hr : prepareLoad bus fuel buf s = some r)
    (hr' : prepareLoad bus fuel' buf s = some r') : r = r' := by
  have h := prepareLoad_mono hr (Nat.le_max_left fuel fuel')
  have h' := prepareLoad_mono hr' (Nat.le_max_right fuel fuel')
  exact Option.some.inj (h.symm.trans h')

theorem prepareLoad_chipState {o : Option Msg} (hr : prepareLoad bus fuel buf s = some (o, s')) :
    s'.conf.chipState = s.conf.chipState := by
  unfold prepareLoad at hr
  split at hr
  · cases hr
  · next u hb =>
    cases hr
    exact enterBoot_chipState hb
  · next b u hb =>
    have hd := bootDialogue_chipState bus b u
    rw [Option.some.inj hr] at hd
    exact hd.trans (enterBoot_chipState hb)

/-! ### The reset -/

theorem resetBoot_mono {r : Rc × Inst H} (hr : resetBoot bus fuel s = some r) (hle : fuel ≤ fuel') :
    resetBoot bus fuel' s = some r := by
  rcases hwr : pd69200Wr bus [ascii 'R', ascii 'S', ascii 'T'] s with ⟨_ | _, u⟩
  · simp only [resetBoot, hwr] at hr ⊢
    exact hr
  · simp only [resetBoot, hwr] at hr ⊢
    cases hget : get15BytesCommProtocolReply bus fuel (Vector.replicate 15 0#8) 0xFF#8 u.hw with
    | none =>
      rw [hget] at hr
      cases hr
    | some q =>
      rw [hget] at hr
      rw [get15_mono hget hle]
      exact hr

theorem ResetFails.ends (h : ResetFails bus s) : ∃ fuel r, resetBoot bus fuel s = some r := by
  rcases hwr : pd69200Wr bus [ascii 'R', ascii 'S', ascii 'T'] s with ⟨_ | _, u⟩
  · exact ⟨0, (.error, u), by simp only [resetBoot, hwr]⟩
  · simp only [ResetFails, hwr, reduceCtorEq, false_or] at h
    obtain ⟨fuel, r, hget⟩ := h
    exact ⟨fuel, (.error, storeBootError r { u with hw := r.hw }), by simp only [resetBoot, hwr, hget, if_true]⟩

theorem storeBootError_chipState (r : RxState H) (s : Inst H) :
    (storeBootError r s).conf.chipState = s.conf.chipState := by
  unfold storeBootError
  split <;> rfl

/-- The reset fails, or the chip state is "found" behind it. -/
theorem resetBoot_cases {rc : Rc} (hr : resetBoot bus fuel s = some (rc, s')) :
    ResetFails bus s ∧ rc = .error ∧ s'.conf.chipState = s.conf.chipState ∨
      ¬ResetFails bus s ∧ s'.conf.chipState = .chipsetFound := by
  have hchip := pd69200Wr_chipState bus [ascii 'R', ascii 'S', ascii 'T'] s
  rcases hwr : pd69200Wr bus [ascii 'R', ascii 'S', ascii 'T'] s with ⟨_ | _, u⟩
  · rw [hwr] at hchip
    simp only [resetBoot, hwr, Option.some.injEq, Prod.mk.injEq] at hr
    obtain ⟨rfl, rfl⟩ := hr
    exact Or.inl ⟨Or.inl (by rw [hwr]), rfl, hchip⟩
  · rw [hwr] at hchip
    simp only [resetBoot, hwr] at hr
    split at hr
    · cases hr
    next rc' r hget =>
    by_cases hrc : rc' = .error
    · subst hrc
      simp only [if_true, Option.some.injEq, Prod.mk.injEq] at hr
      obtain ⟨rfl, rfl⟩ := hr
      exact Or.inl ⟨Or.inr ⟨fuel, r, by rw [hwr]; exact hget⟩, rfl, (storeBootError_chipState _ _).trans hchip⟩
    · simp only [hrc, if_false, Option.some.injEq, Prod.mk.injEq] at hr
      obtain ⟨-, rfl⟩ := hr
      refine Or.inr ⟨?_, rfl⟩
      rintro (h | ⟨fuel', r', hget'⟩)
      · rw [hwr] at h
        cases h
      · rw [hwr] at hget'
        have heq := (Leads.of_loop hget).unique (Leads.of_loop hget')
        exact hrc (congrArg Prod.fst heq)

/-! ### The outcome -/

/-- A download stays in its bounds, and sends the first lines of the image in order, each once. It has sent all of them,
and all have been acknowledged, or it ends with an error and a chip state that is not "found". -/
structure Downloads (bus : I2c H) (signed : Bool) (buf : Msg) (image builtin : Option (List Byte)) (s : Inst H) :
    Prop where
  outcome : ∀ fuel d, firmwareUpgrade bus signed fuel buf image builtin s = some d →
    d.ended ≠ .fault ∧ d.log.map Prod.fst <+: imageLines ((image.or builtin).getD []) ∧
      (Complete ((image.or builtin).getD []) d.log ∨ Failed d)
  ends : ∀ fuel buf' s' bytes e t, prepareLoad bus fuel buf s = some (some buf', s') → image.or builtin = some bytes →
    Leads (loadPass bus signed) { rest := bytes, buf := buf', inst := s' } (e, t) → ¬Complete bytes t.log →
    ∃ fuel d, firmwareUpgrade bus signed fuel buf image builtin s = some d

theorem firmwareUpgrade_eq {image builtin : Option (List Byte)} {bytes : List Byte} {e : LoadEnd} {t : LoadState H}
    (hchip : s.conf.chipState = .firmwareUpgrade) (hprep : prepareLoad bus fuel buf s = some (some buf', s'))
    (himage : image.or builtin = some bytes)
    (hl : Leads (loadPass bus signed) { rest := bytes, buf := buf', inst := s' } (e, t)) :
    firmwareUpgrade bus signed fuel buf image builtin s = finishLoad bus fuel (e, t) := by
  obtain ⟨b, hloop⟩ := load_ends bus signed { rest := bytes, buf := buf', inst := s' }
  cases (Leads.of_loop hloop).unique hl
  simp only at hloop
  simp only [firmwareUpgrade, hchip, hprep, himage, hloop, ne_eq, not_true_eq_false, if_false, Option.bind_some]

theorem loadInv_start (signed : Bool) (bytes : List Byte) (buf : Msg) (s : Inst H) :
    LoadInv signed bytes ({ rest := bytes, buf, inst := s } : LoadState H) :=
  ⟨rfl, Or.inr Iff.rfl, fun _ h => absurd h List.not_mem_nil⟩

/-- The download of any image to any controller is as `Downloads` says exactly when the loop over the lines, where it is
reached, has a good course. -/
theorem download_outcome (bus : I2c H) (signed : Bool) (buf : Msg) (image builtin : Option (List Byte)) (s : Inst H) :
    Downloads bus signed buf image builtin (setChipset .firmwareUpgrade s) ↔
      ∀ fuel buf' s' bytes, prepareLoad bus fuel buf (setChipset .firmwareUpgrade s) = some (some buf', s') →
        image.or builtin = some bytes → Course bus signed { rest := bytes, buf := buf', inst := s' } := by
  have hchip : (setChipset .firmwareUpgrade s).conf.chipState = .firmwareUpgrade := rfl
  constructor
  · intro hd fuel buf' s' bytes hprep himage
    rw [course_iff (loadInv_start signed bytes buf' s')]
    intro e t hl
    have heq := firmwareUpgrade_eq hchip hprep himage hl
    have hbytes : (image.or builtin).getD [] = bytes := by rw [himage]; rfl
    have hout := hd.outcome
    rw [hbytes] at hout
    cases e with
    | fault => exact absurd rfl (hout fuel _ heq).1
    | noAck => exact ⟨by simp, (hout fuel _ heq).2.1, by simp⟩
    | stopped =>
      by_cases hcomp : Complete bytes t.log
      · exact ⟨by simp, hcomp.lines ▸ List.prefix_refl _, fun _ => Or.inr hcomp⟩
      -- the download ends, and is an error
      obtain ⟨fuel', d, hd'⟩ := hd.ends fuel buf' s' bytes .stopped t hprep himage hl hcomp
      have hprep' : prepareLoad bus fuel' buf (setChipset .firmwareUpgrade s) = some (some buf', s') := by
        cases hp : prepareLoad bus fuel' buf (setChipset .firmwareUpgrade s) with
        | none =>
          unfold firmwareUpgrade at hd'
          rw [hp] at hd'
          simp [hchip] at hd'
        | some r => rw [prepareLoad_unique hp hprep]
      have heq' := firmwareUpgrade_eq hchip hprep' himage hl
      have hd'' := heq'.symm.trans hd'
      simp only [finishLoad, Option.map_eq_some_iff] at hd''
      obtain ⟨⟨rc, u⟩, hreset, rfl⟩ := hd''
      obtain ⟨-, hpre, hres⟩ := hout fuel' _ hd'
      obtain ⟨rc', -, -, hnot⟩ := hres.resolve_left hcomp
      refine ⟨by simp, hpre, fun _ => Or.inl ?_⟩
      rcases resetBoot_cases hreset with ⟨hfail, -, -⟩ | ⟨-, hfound⟩
      · exact hfail
      · exact absurd hfound hnot
  · intro hcourse
    constructor
    · intro fuel d hd
      have hfail : ∀ u : Inst H, u.conf.chipState = .firmwareUpgrade → Failed (⟨.rc .error, u, []⟩ : Download H) :=
        fun u hu => ⟨.error, rfl, by simp, by rw [hu]; simp⟩
      have hnil : ([] : List (List Byte × List Byte)).map Prod.fst <+: imageLines ((image.or builtin).getD []) :=
        List.nil_prefix
      cases hprep : prepareLoad bus fuel buf (setChipset .firmwareUpgrade s) with
      | none =>
        unfold firmwareUpgrade at hd
        rw [hprep] at hd
        simp [hchip] at hd
      | some r =>
        obtain ⟨o, s'⟩ := r
        have hchip' := (prepareLoad_chipState hprep).trans hchip
        cases o with
        | none =>
          unfold firmwareUpgrade at hd
          rw [hprep] at hd
          simp only [hchip, ne_eq, not_true_eq_false, if_false, Option.some.injEq] at hd
          subst hd
          exact ⟨by simp, hnil, Or.inr (hfail s' hchip')⟩
        | some buf' =>
          cases himage : image.or builtin with
          | none =>
            unfold firmwareUpgrade at hd
            rw [hprep, himage] at hd
            simp only [hchip, ne_eq, not_true_eq_false, if_false, Option.some.injEq] at hd
            subst hd
            exact ⟨by simp, List.nil_prefix, Or.inr (hfail s' hchip')⟩
          | some bytes =>
            obtain ⟨⟨e, t⟩, hloop⟩ := load_ends bus signed { rest := bytes, buf := buf', inst := s' }
            have hl := Leads.of_loop hloop
            have heq := firmwareUpgrade_eq hchip hprep himage hl
            have hg := (course_iff (loadInv_start signed bytes buf' s')).mp
              (hcourse fuel buf' s' bytes hprep himage) e t hl
            have hchip'' : t.inst.conf.chipState = .firmwareUpgrade := (load_grows hl).2.trans hchip'
            have hd' := heq.symm.trans hd
            cases e with
            | fault => exact absurd rfl hg.inside
            | noAck =>
              cases hd'
              exact ⟨by simp, hg.inOrder, Or.inr ⟨.error, rfl, by simp, by rw [hchip'']; simp⟩⟩
            | stopped =>
              simp only [finishLoad, Option.map_eq_some_iff] at hd'
              obtain ⟨⟨rc, u⟩, hreset, rfl⟩ := hd'
              refine ⟨by simp, hg.inOrder, ?_⟩
              rcases hg.complete rfl with hfails | hcomp
              · rcases resetBoot_cases hreset with ⟨-, hrc, hsame⟩ | ⟨hnot, -⟩
                · exact Or.inr ⟨rc, rfl, by rw [hrc]; simp, by rw [hsame, hchip'']; simp⟩
                · exact absurd hfails hnot
              · exact Or.inl hcomp
    · intro fuel buf' s' bytes e t hprep himage hl hcomp
      have hg := (course_iff (loadInv_start signed bytes buf' s')).mp (hcourse fuel buf' s' bytes hprep himage) e t hl
      have heq := firmwareUpgrade_eq hchip hprep himage hl
      cases e with
      | fault => exact ⟨fuel, _, heq⟩
      | noAck => exact ⟨fuel, _, heq⟩
      | stopped =>
        obtain ⟨fuel', r, hreset⟩ := ((hg.complete rfl).resolve_right hcomp).ends
        have hprep' := prepareLoad_mono hprep (Nat.le_max_left fuel fuel')
        have heq' := firmwareUpgrade_eq hchip hprep' himage hl
        simp only [finishLoad, resetBoot_mono hreset (Nat.le_max_right fuel fuel'), Option.map_some] at heq'
        exact ⟨_, _, heq'⟩

end Download

/-! ### A malformed image -/

/-- A controller that takes everything, and whose reads are written down beforehand. -/
def scripted : I2c (List (Option (List Byte))) where
  write _ h := (true, h)
  read n h := ((h.head?.bind id).map fun data => data.take n, h.tail)
  read_length n h data hdata := by
    rw [Option.map_eq_some_iff] at hdata
    obtain ⟨l, -, rfl⟩ := hdata
    exact List.length_take_le n l

/-- The two reads of a reply. -/
def replies (c : Char) (cs : List Char) : List (Option (List Byte)) :=
  [some [ascii c], some (cs.map ascii ++ [0x0D#8, lf])]

/-- A status without error, as it follows a reset. -/
def statusRest : Vector Byte 13 :=
  #v[0x00#8, 0x00#8, 0x00#8, 0x00#8, 0x00#8, 0x00#8, 0x00#8, 0x00#8, 0x00#8, 0x00#8, 0x00#8, 0x01#8, 0x02#8]

def statusScript : List (Option (List Byte)) :=
  [some [telemetryKey], some [systemStatusEchoKey], some statusRest.toList]

/-- No firmware, the dialogue from TPE to TOP, and the status after the reset. -/
def bootScript : List (Option (List Byte)) :=
  [none, none, none] ++ replies 'T' ['P', 'E'] ++ replies 'T' ['O', 'E'] ++ replies 'T' ['E'] ++ replies 'T' ['P', 'E'] ++
    replies 'T' ['O', 'P'] ++ statusScript

def bootInst : Inst (List (Option (List Byte))) := setChipset .firmwareUpgrade ⟨{}, bootScript⟩

def noMsg : Msg := Vector.replicate 15 0#8

theorem bootInst_prepared : ∃ buf s, prepareLoad scripted 1 noMsg bootInst = some (some buf, s) ∧ s.hw = statusScript :=
  ⟨_, _, rfl, rfl⟩

theorem statusScript_arrives :
    Arrives scripted 0xFF#8 statusScript (frame telemetryKey systemStatusEchoKey statusRest) := by
  have hkey : scripted.rd 1 statusScript = (some #v[telemetryKey], statusScript.drop 1) := rfl
  have hecho : scripted.rd 1 (statusScript.drop 1) = (some #v[systemStatusEchoKey], statusScript.drop 2) := rfl
  have hrest : scripted.rd 13 (statusScript.drop 2) = (some statusRest, []) := rfl
  have hhead : HeaderAt scripted 0xFF#8 ({}, statusScript) telemetryKey systemStatusEchoKey
      ((({} : Counts).read telemetryKey).read systemStatusEchoKey, statusScript.drop 2) :=
    .mk (by decide) hkey (by decide) hecho (by decide)
  exact ⟨_, .refl, .mk hhead hrest (by decide)⟩

/-- An image of the single letter X is reported as downloaded. -/
theorem not_download_outcome : ¬∀ (image : List Byte) (s : Inst (List (Option (List Byte)))),
    Downloads scripted false noMsg (some image) none (setChipset .firmwareUpgrade s) := by
  intro h
  obtain ⟨buf, s, hprep, hhw⟩ := bootInst_prepared
  have hrec : nextRecord false [ascii 'X'] = .malformed := by decide
  have hpass : loadPass scripted false { rest := [ascii 'X'], buf := buf, inst := s } =
      .inr (.stopped, { rest := [ascii 'X'], buf := buf, inst := s }) := loadPass_stopped scripted (Or.inr hrec)
  have hl := (leads_of_stop hpass).mpr rfl
  -- the reset and the status after it
  obtain ⟨r, hr, -⟩ := leads_of_arrives (Vector.replicate 15 0#8) statusScript_arrives
  obtain ⟨fuel, hget⟩ := hr.exists_loop
  have hok : messageRc (frame telemetryKey systemStatusEchoKey statusRest) = .ok := by decide
  rw [hok] at hget
  have hwr : pd69200Wr scripted [ascii 'R', ascii 'S', ascii 'T'] s = (true, s) := rfl
  have hreset : resetBoot scripted fuel s =
      some (.ok, setChipset .chipsetFound (storeBootError r { s with hw := r.hw })) := by
    have hget' : get15BytesCommProtocolReply scripted fuel (Vector.replicate 15 0#8) 0xFF#8 s.hw = some (.ok, r) := by
      rw [hhw]
      exact hget
    simp only [resetBoot, hwr, hget', reduceCtorEq, if_false]
  have himage : (some [ascii 'X']).or none = some [ascii 'X'] := rfl
  have heq := firmwareUpgrade_eq rfl (prepareLoad_mono hprep (Nat.le_max_left 1 fuel)) himage hl
  simp only [finishLoad, resetBoot_mono hreset (Nat.le_max_right 1 fuel), Option.map_some] at heq
  obtain ⟨-, -, hcomp | ⟨rc, hrc, hne, -⟩⟩ := (h [ascii 'X'] ⟨{}, bootScript⟩).outcome _ _ heq
  · obtain ⟨init, last, hlog, -⟩ := hcomp.acked
    simp at hlog
  · cases hrc
    exact hne rfl

end Lan80xx.Poe
