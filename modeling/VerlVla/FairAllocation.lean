import Mathlib.Algebra.Order.BigOperators.Group.List
import Mathlib.Algebra.Order.Ring.Nat
import Mathlib.Tactic.Common

/-!
# Round-robin allocation

A number of units is handed out one by one, round after round, to shares of
limited size.  The result is max-min fair: no share is two units ahead of one
that has room left.
-/

namespace VerlVla

variable {κ : Type}

structure Share (κ : Type) where
  key : κ
  size : ℕ
  count : ℕ

namespace Share

def total (shares : List (Share κ)) : ℕ := (shares.map (·.count)).sum

def available (shares : List (Share κ)) : ℕ := (shares.map (·.size)).sum

/-- One more unit for every share with room, while units remain. -/
def round : List (Share κ) → ℕ → List (Share κ) × ℕ
  | [], remaining => ([], remaining)
  | share :: shares, remaining =>
    if share.count < share.size ∧ 0 < remaining then
      let rest := round shares (remaining - 1)
      ({ share with count := share.count + 1 } :: rest.1, rest.2)
    else
      let rest := round shares remaining
      (share :: rest.1, rest.2)

/-- Rounds until no unit remains, or until a round hands out nothing. -/
def allocateLoop : ℕ → List (Share κ) → ℕ → Option (List (Share κ))
  | _, shares, 0 => some shares
  | 0, _, _ + 1 => none
  | fuel + 1, shares, remaining + 1 =>
    let next := round shares (remaining + 1)
    if next.2 < remaining + 1 then allocateLoop fuel next.1 next.2
    else none

def Level (rounds : ℕ) (shares : List (Share κ)) : Prop :=
  ∀ share ∈ shares, share.count = min share.size rounds

def Between (rounds : ℕ) (shares : List (Share κ)) : Prop :=
  ∀ share ∈ shares, share.count = min share.size rounds ∨
    share.count = min share.size (rounds + 1)

def Fair (shares : List (Share κ)) : Prop :=
  ∀ ahead ∈ shares, ∀ behind ∈ shares, behind.count < behind.size →
    ahead.count ≤ behind.count + 1

def sizes (shares : List (Share κ)) : List (κ × ℕ) :=
  shares.map fun share => (share.key, share.size)

section Allocation

variable {rounds remaining : ℕ} {shares : List (Share κ)}

theorem Level.between (hlevel : Level rounds shares) : Between rounds shares :=
  fun share hshare => .inl (hlevel share hshare)

theorem Between.fair (hbetween : Between rounds shares) : Fair shares := by
  intro ahead hahead behind hbehind hroom
  rcases hbetween ahead hahead with hahead | hahead <;>
    rcases hbetween behind hbehind with hbehind | hbehind <;> omega

theorem Between.count_le (hbetween : Between rounds shares) :
    ∀ share ∈ shares, share.count ≤ share.size := by
  intro share hshare
  rcases hbetween share hshare with hcount | hcount <;> omega

theorem sizes_round (shares : List (Share κ)) (remaining : ℕ) :
    sizes (round shares remaining).1 = sizes shares := by
  induction shares generalizing remaining with
  | nil => rfl
  | cons share shares ih =>
    have hrest := ih remaining
    have hless := ih (remaining - 1)
    unfold round
    split_ifs <;> simp_all [sizes]

theorem total_round (shares : List (Share κ)) (remaining : ℕ) :
    total (round shares remaining).1 + (round shares remaining).2 =
      total shares + remaining := by
  induction shares generalizing remaining with
  | nil => rfl
  | cons share shares ih =>
    have hrest := ih remaining
    have hless := ih (remaining - 1)
    unfold round
    split_ifs with hroom
    · simp only [total, List.map_cons, List.sum_cons] at hless ⊢
      omega
    · simp only [total, List.map_cons, List.sum_cons] at hrest ⊢
      omega

theorem round_left_le (shares : List (Share κ)) (remaining : ℕ) :
    (round shares remaining).2 ≤ remaining := by
  induction shares generalizing remaining with
  | nil => exact Nat.le_refl remaining
  | cons share shares ih =>
    have hrest := ih remaining
    have hless := ih (remaining - 1)
    unfold round
    split_ifs
    · show (round shares (remaining - 1)).2 ≤ remaining
      omega
    · exact hrest

theorem Level.round (hlevel : Level rounds shares) (remaining : ℕ) :
    Between rounds (round shares remaining).1 ∧
      ((round shares remaining).2 = 0 ∨
        Level (rounds + 1) (round shares remaining).1) := by
  induction shares generalizing remaining with
  | nil => exact ⟨by simp [Share.round, Between], by simp [Share.round, Level]⟩
  | cons share shares ih =>
    obtain ⟨hshare, hshares⟩ := List.forall_mem_cons.mp hlevel
    unfold Share.round
    split_ifs with hroom
    · obtain ⟨hbetween, hdone⟩ := ih hshares (remaining - 1)
      have hcount : share.count + 1 = min share.size (rounds + 1) := by
        omega
      constructor
      · exact List.forall_mem_cons.mpr ⟨.inr hcount, hbetween⟩
      · rcases hdone with hzero | hnext
        · exact .inl hzero
        · exact .inr (List.forall_mem_cons.mpr ⟨hcount, hnext⟩)
    · obtain ⟨hbetween, hdone⟩ := ih hshares remaining
      constructor
      · exact List.forall_mem_cons.mpr ⟨.inl hshare, hbetween⟩
      · rcases hdone with hzero | hnext
        · exact .inl hzero
        · by_cases hremaining : 0 < remaining
          · have hcount : share.count = min share.size (rounds + 1) := by
              omega
            exact .inr (List.forall_mem_cons.mpr ⟨hcount, hnext⟩)
          · left
            have hleft := round_left_le shares remaining
            show (Share.round shares remaining).2 = 0
            omega

theorem round_progress (hremaining : 0 < remaining)
    (hroom : ∃ share ∈ shares, share.count < share.size) :
    (round shares remaining).2 < remaining := by
  induction shares with
  | nil =>
    obtain ⟨_, hmem, _⟩ := hroom
    cases hmem
  | cons share shares ih =>
    unfold round
    split_ifs with hhead
    · have hleft := round_left_le shares (remaining - 1)
      show (round shares (remaining - 1)).2 < remaining
      omega
    · apply ih
      obtain ⟨other, hother, hless⟩ := hroom
      rcases List.mem_cons.mp hother with rfl | hother
      · exact absurd ⟨hless, hremaining⟩ hhead
      · exact ⟨other, hother, hless⟩

theorem exists_room (hless : total shares < available shares) :
    ∃ share ∈ shares, share.count < share.size := by
  by_contra hnone
  push Not at hnone
  have hle : available shares ≤ total shares := List.sum_le_sum hnone
  omega

theorem allocateLoop_spec (hlevel : Level rounds shares)
    (hfuel : remaining ≤ fuel)
    (havailable : total shares + remaining ≤ available shares) :
    ∃ result, allocateLoop fuel shares remaining = some result ∧
      sizes result = sizes shares ∧
      total result = total shares + remaining ∧
      ∃ rounds, Between rounds result := by
  induction fuel generalizing rounds shares remaining with
  | zero =>
    obtain rfl : remaining = 0 := by omega
    exact ⟨shares, by rw [allocateLoop], rfl, rfl, rounds, hlevel.between⟩
  | succ fuel ih =>
    cases remaining with
    | zero =>
      exact ⟨shares, by rw [allocateLoop], rfl, rfl, rounds, hlevel.between⟩
    | succ remaining =>
      have hprogress : (Share.round shares (remaining + 1)).2 <
          remaining + 1 :=
        round_progress (Nat.succ_pos remaining) (exists_room (by omega))
      have htotal := total_round shares (remaining + 1)
      have hsizes := sizes_round shares (remaining + 1)
      have havail : available (Share.round shares (remaining + 1)).1 =
          available shares := by
        have hmap := congrArg (fun entries : List (κ × ℕ) =>
          (entries.map (·.2)).sum) hsizes
        simpa [sizes, available, Function.comp_def] using hmap
      obtain ⟨hbetween, hdone⟩ := hlevel.round (remaining + 1)
      rw [allocateLoop, if_pos hprogress]
      rcases hdone with hzero | hnext
      · rw [hzero]
        refine ⟨_, by rw [allocateLoop], hsizes, ?_, rounds, hbetween⟩
        omega
      · have hless : (Share.round shares (remaining + 1)).2 ≤ fuel := by
          omega
        have hroom : total (Share.round shares (remaining + 1)).1 +
            (Share.round shares (remaining + 1)).2 ≤
              available (Share.round shares (remaining + 1)).1 := by
          omega
        obtain ⟨result, hloop, hresult, hsum, hfair⟩ := ih hnext hless hroom
        exact ⟨result, hloop, hresult.trans hsizes, by omega, hfair⟩

end Allocation

end Share
end VerlVla
