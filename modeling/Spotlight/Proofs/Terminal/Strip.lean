import Spotlight.Proofs.Text.Utf8
import Spotlight.Terminal.Strip

/-!
# No escapes are left

The machine that strips escape sequences never keeps an escape byte that it looks at, but inside a character of
several bytes it keeps what comes without a look. In well-formed text only continuation bytes come there.

* `Rune.following`, `Bytes.Led` — does every lead byte have the other bytes of its character behind it?
* `Bytes.led_of_isUtf8` — in a well-formed text every lead byte has;
* `Terminal.State.pending` — the number of bytes that are kept without a look;
* `Terminal.not_mem_strip` — no escape byte is left of a well-formed text.
-/

namespace Spotlight

/-! ### Lead bytes -/

namespace Rune

/-- The number of bytes that follow `b` in its character. -/
def following (b : UInt8) : Nat :=
  if Terminal.State.within 0xc2 0xdf b then 1
  else if Terminal.State.within 0xe0 0xef b then 2
  else if Terminal.State.within 0xf0 0xf4 b then 3
  else 0

theorem following_eq (b : UInt8) : following b =
    if b.toNat < 194 then 0 else if b.toNat < 224 then 1 else if b.toNat < 240 then 2
    else if b.toNat ≤ 244 then 3 else 0 := by
  simp only [following, Terminal.State.within, Bool.and_eq_true, decide_eq_true_eq, UInt8.le_iff_toNat_le,
    UInt8.reduceToNat]
  repeat' split
  all_goals omega

theorem following_of_lt {b : UInt8} (h : b < 0xc2) : following b = 0 := by
  have h : b.toNat < 194 := UInt8.lt_iff_toNat_lt.1 h
  rw [following_eq, if_pos h]

theorem following_of_isContinuation {c : UInt8} (h : isContinuation c = true) : following c = 0 := by
  rw [isContinuation, Bool.and_eq_true, decide_eq_true_eq, decide_eq_true_eq] at h
  exact following_of_lt (UInt8.lt_of_le_of_lt h.2 (by decide))

theorem isContinuation_second {b c : UInt8}
    (h : ¬ (decide (c < leastSecond b) || decide (greatestSecond b < c)) = true) : isContinuation c = true := by
  simp only [Bool.or_eq_true, decide_eq_true_eq, not_or, UInt8.not_lt] at h
  have hgreatest : greatestSecond b ≤ 0xbf := by
    unfold greatestSecond
    split
    · decide
    · split <;> decide
  rw [isContinuation, Bool.and_eq_true, decide_eq_true_eq, decide_eq_true_eq]
  exact ⟨UInt8.le_trans (le_leastSecond b) h.1, UInt8.le_trans h.2 hgreatest⟩

/-- A well-formed character is its first byte and the continuation bytes that follow it. -/
theorem exists_following {b : UInt8} {s : Bytes} (h : (first b s).isMalformed = false) :
    ∃ more rest, s = more ++ rest ∧ more.length = following b ∧ (first b s).raw.length - 1 = more.length ∧
      ∀ c ∈ more, isContinuation c = true := by
  have hmal : (malformed b).isMalformed ≠ false := by simp [isMalformed, malformed]
  revert h
  fun_cases first b s with
  | case2 | case3 | case4 | case6 | case7 | case9 | case10 => exact fun h => absurd h hmal
  | case1 s hb =>
    intro _
    exact ⟨[], s, rfl, (following_of_lt (UInt8.lt_trans hb (by decide))).symm, rfl, by simp⟩
  | case5 _ hlead c s hsecond hb =>
    intro _
    have := bounds_of_lead hlead
    have hb : b.toNat < 224 := UInt8.lt_iff_toNat_lt.1 hb
    refine ⟨[c], s, rfl, ?_, rfl, by simp [isContinuation_second hsecond]⟩
    rw [following_eq, if_neg (by omega), if_pos hb]
    rfl
  | case8 _ hlead c hsecond hb d s hd hb' =>
    intro _
    have := bounds_of_lead hlead
    have hb : ¬ b.toNat < 224 := fun hlt => hb (UInt8.lt_iff_toNat_lt.2 hlt)
    have hb' : b.toNat < 240 := UInt8.lt_iff_toNat_lt.1 hb'
    have hd : isContinuation d = true := by simpa using hd
    refine ⟨[c, d], s, rfl, ?_, rfl, by simp [isContinuation_second hsecond, hd]⟩
    rw [following_eq, if_neg (by omega), if_neg hb, if_pos hb']
    rfl
  | case11 _ hlead c hsecond _ d hd hb e s he =>
    intro _
    have := bounds_of_lead hlead
    have hb : ¬ b.toNat < 240 := fun hlt => hb (UInt8.lt_iff_toNat_lt.2 hlt)
    have hd : isContinuation d = true := by simpa using hd
    have he : isContinuation e = true := by simpa using he
    refine ⟨[c, d, e], s, rfl, ?_, rfl, by simp [isContinuation_second hsecond, hd, he]⟩
    rw [following_eq, if_neg (by omega), if_neg (by omega), if_neg hb, if_pos (by omega)]
    rfl

end Rune

namespace Bytes

/-- Does every lead byte of the text have the other bytes of its character behind it? -/
def Led : Bytes → Prop
  | [] => True
  | b :: s => (∀ c ∈ s.take (Rune.following b), Rune.isContinuation c = true) ∧ Led s

theorem led_append {more rest : Bytes} (h : ∀ c ∈ more, Rune.isContinuation c = true) (hrest : rest.Led) :
    (more ++ rest).Led := by
  induction more with
  | nil => exact hrest
  | cons c more ih =>
    rw [List.forall_mem_cons] at h
    refine ⟨?_, ih h.2⟩
    rw [Rune.following_of_isContinuation h.1]
    simp

theorem led_of_isUtf8 {s : Bytes} (h : s.isUtf8 = true) : s.Led := by
  induction s using Rune.ofBytes_induction with
  | nil => trivial
  | cons b s ih =>
    rw [isUtf8, Rune.ofBytes_cons, List.all_cons, Bool.and_eq_true, Bool.not_eq_true'] at h
    obtain ⟨more, rest, hs, hlength, hraw, hmore⟩ := Rune.exists_following h.1
    rw [hraw, hs, List.drop_left] at h ih
    rw [hs]
    refine ⟨?_, led_append hmore (ih h.2)⟩
    rw [← hlength, List.take_left]
    exact hmore

end Bytes

namespace Terminal

/-! ### One byte -/

namespace State

/-- The number of bytes that are kept without a look. -/
def pending : State → Nat
  | character left => max 1 left
  | _ => 0

/-- An escape byte that is looked at is not kept. -/
theorem step_escape {s : State} (h : s.pending = 0) : (s.step 0x1b).1 = false := by
  cases s with
  | character left =>
    rw [pending] at h
    omega
  | _ => rfl

theorem pending_anywhere (b : UInt8) : (anywhere b).2.pending ≤ Rune.following b := by
  unfold anywhere
  iterate 6
    split
    · exact Nat.zero_le _
  -- What is left are the lead bytes, by the number of bytes behind them, and all others.
  rw [Rune.following]
  split
  · exact Nat.le_refl 1
  · split
    · exact Nat.le_refl 2
    · split
      · exact Nat.le_refl 3
      · exact Nat.zero_le _

theorem stepControl_cases {s param : State} (hs : s.pending = 0) (hparam : param.pending = 0) (b : UInt8) :
    (stepControl s param b).2.pending = 0 ∨ stepControl s param b = anywhere b := by
  unfold stepControl
  repeat' split
  all_goals first | exact .inr rfl | exact .inl hs | exact .inl hparam | exact .inl rfl

/-- Outside of characters a byte is looked at for what it does anywhere, or it leads to no character. -/
theorem step_cases {s : State} (h : s.pending = 0) (b : UInt8) :
    (s.step b).2.pending = 0 ∨ s.step b = anywhere b := by
  cases s with
  | character left =>
    rw [pending] at h
    omega
  | controlEntry | controlParam | controlIntermediate => exact stepControl_cases rfl rfl b
  | _ =>
    simp only [step, stepEscape, stepDeviceEntry]
    repeat' split
    all_goals first | exact .inr rfl | exact .inl rfl

/-- Only a lead byte makes the machine keep bytes without a look, and no more than follow it. -/
theorem pending_step (s : State) (b : UInt8) :
    (s.step b).2.pending ≤ s.pending - 1 ∨ (s.step b).2.pending ≤ Rune.following b := by
  by_cases h : s.pending = 0
  · rcases step_cases h b with hcalm | hlead
    · exact .inl (by omega)
    · rw [hlead]
      exact .inr (pending_anywhere b)
  · cases s with
    | character left =>
      left
      show (if left ≤ 1 then ground else character (left - 1)).pending ≤ max 1 left - 1
      split
      · exact Nat.zero_le _
      · rw [pending]
        omega
    | _ => exact absurd rfl h

end State

/-! ### All bytes -/

/-- Nothing but continuation bytes comes without a look, and no escape byte is left. -/
theorem not_mem_stripFrom {s : Bytes} (h : s.Led) {st : State}
    (hpending : ∀ c ∈ s.take st.pending, Rune.isContinuation c = true) : 0x1b ∉ stripFrom st s := by
  induction s generalizing st with
  | nil => exact List.not_mem_nil
  | cons b s ih =>
    have hnext : ∀ c ∈ s.take (st.step b).2.pending, Rune.isContinuation c = true := by
      intro c hc
      rcases st.pending_step b with hle | hle
      · apply hpending
        cases hp : st.pending with
        | zero =>
          rw [hp] at hle
          rw [Nat.le_zero.1 hle] at hc
          simp at hc
        | succ n =>
          rw [hp, Nat.add_sub_cancel] at hle
          rw [List.take_succ_cons]
          exact List.mem_cons_of_mem _ ((List.take_subset_take_left s hle) hc)
      · exact h.1 c ((List.take_subset_take_left s hle) hc)
    have hrest := ih h.2 hnext
    have hkept : (st.step b).1 = true → b ≠ 0x1b := by
      rintro hkept rfl
      cases hp : st.pending with
      | zero =>
        rw [State.step_escape hp] at hkept
        exact Bool.noConfusion hkept
      | succ n =>
        have hfirst := hpending 0x1b (by rw [hp]; exact List.mem_cons_self)
        exact absurd hfirst (by decide)
    rw [stripFrom]
    split
    · rename_i next hstep
      rw [hstep] at hrest hkept
      rw [List.mem_cons, not_or]
      exact ⟨Ne.symm (hkept rfl), hrest⟩
    · rename_i next hstep
      rw [hstep] at hrest
      exact hrest

/-- **No escape byte is left of a well-formed text.** -/
theorem not_mem_strip {s : Bytes} (h : s.isUtf8 = true) : 0x1b ∉ strip s :=
  not_mem_stripFrom (Bytes.led_of_isUtf8 h) (by simp [State.pending])

end Terminal

end Spotlight
