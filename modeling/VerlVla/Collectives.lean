import Mathlib.Logic.Unique
import Mathlib.Tactic.Common

/-!
# Programs with collective operations

Every rank runs its own program.  A collective operation takes a contribution
of every rank and gives all of them one result, so the ranks go on only while
they call the same operation.  The rules prove that they do, and what their
values have in common.
-/

namespace VerlVla

inductive RankProgram (Op : Type) (In Out : Op → Type) (ε α : Type)
  | done (value : α)
  | fail (error : ε)
  | collect (op : Op) (contribution : In op)
      (next : Out op → RankProgram Op In Out ε α)

namespace RankProgram

variable {Op : Type} {In Out : Op → Type} {ε α β σ τ ι : Type}

def bind : RankProgram Op In Out ε α →
    (α → RankProgram Op In Out ε β) → RankProgram Op In Out ε β
  | .done value, rest => rest value
  | .fail error, _ => .fail error
  | .collect op contribution next, rest =>
    .collect op contribution fun result => (next result).bind rest

instance : Monad (RankProgram Op In Out ε) where
  pure := .done
  bind := bind

def collective (op : Op) (contribution : In op) :
    RankProgram Op In Out ε (Out op) :=
  .collect op contribution .done

/-- Continue if the condition holds, raise the error otherwise. -/
def check (condition : Prop) [Decidable condition] (error : ε) :
    RankProgram Op In Out ε Unit :=
  if condition then .done () else .fail error

/-- A loop over a list, told at each item whether it is the last. -/
def forEach (body : Bool → σ → τ → RankProgram Op In Out ε σ) :
    List τ → σ → RankProgram Op In Out ε σ
  | [], state => .done state
  | item :: items, state =>
    body items.isEmpty state item >>= forEach body items

theorem bind_assoc {γ : Type} (program : RankProgram Op In Out ε α)
    (second : α → RankProgram Op In Out ε β)
    (third : β → RankProgram Op In Out ε γ) :
    program >>= second >>= third =
      program >>= fun value => second value >>= third := by
  induction program with
  | done value | fail error => rfl
  | collect op contribution next ih =>
    exact congrArg (RankProgram.collect op contribution) (funext ih)

/-- All ranks call the same operations, up to the end of all programs with
related values or up to an error that all of them raise. -/
inductive Together (reduce : (op : Op) → (ι → In op) → Out op)
    (raised : ε → Prop) (post : (ι → α) → Prop) :
    (ι → RankProgram Op In Out ε α) → Prop
  | done {values : ι → α} (hvalues : post values) :
      Together reduce raised post fun rank => .done (values rank)
  | fail {error : ε} (herror : raised error) :
      Together reduce raised post fun _ => .fail error
  | collect {op : Op} {contributions : ι → In op}
      {next : ι → Out op → RankProgram Op In Out ε α}
      (hnext : Together reduce raised post fun rank =>
        next rank (reduce op contributions)) :
      Together reduce raised post fun rank =>
        .collect op (contributions rank) (next rank)

theorem Together.mono (htogether : Together reduce raised post programs)
    (hweaker : ∀ values, post values → weaker values) :
    Together reduce raised weaker programs := by
  induction htogether with
  | done hvalues => exact .done (hweaker _ hvalues)
  | fail herror => exact .fail herror
  | collect _ ih => exact .collect ih

theorem Together.bind {rest : ι → α → RankProgram Op In Out ε β}
    (hfirst : Together reduce raised post programs)
    (hrest : ∀ values, post values →
      Together reduce raised then' fun rank => rest rank (values rank)) :
    Together reduce raised then' fun rank =>
      programs rank >>= rest rank := by
  induction hfirst with
  | done hvalues => exact hrest _ hvalues
  | fail herror => exact .fail herror
  | collect _ ih => exact .collect ih

theorem Together.collective_bind {op : Op} {contributions : ι → In op}
    {rest : ι → Out op → RankProgram Op In Out ε α}
    (hrest : Together reduce raised post fun rank =>
      rest rank (reduce op contributions)) :
    Together reduce raised post fun rank =>
      collective op (contributions rank) >>= rest rank :=
  .collect hrest

theorem Together.check_bind {condition : Prop} [Decidable condition]
    {rest : ι → Unit → RankProgram Op In Out ε α}
    (hrest : condition → Together reduce raised post fun rank => rest rank ())
    (hraised : ¬condition → raised error) :
    Together reduce raised post fun rank =>
      check condition error >>= rest rank := by
  unfold check
  by_cases hcondition : condition
  · simp only [if_pos hcondition]
    exact hrest hcondition
  · simp only [if_neg hcondition]
    exact .fail (hraised hcondition)

/-- A loop over lists of one length keeps an invariant that its body keeps, and
ends as its last item does. -/
theorem Together.forEach (invariant : (ι → σ) → Prop)
    {final : (ι → σ) → Prop} (related : (ι → τ) → Prop)
    {body : ι → Bool → σ → τ → RankProgram Op In Out ε σ}
    (hbody : ∀ states items, invariant states → related items →
      Together reduce raised invariant fun rank =>
        body rank false (states rank) (items rank))
    (hlast : ∀ states items, invariant states → related items →
      Together reduce raised final fun rank =>
        body rank true (states rank) (items rank))
    (rows : List (ι → τ)) (hrows : ∀ items ∈ rows, related items)
    (states : ι → σ) (hstates : invariant states)
    (hempty : rows = [] → final states) :
    Together reduce raised final fun rank =>
      RankProgram.forEach (body rank) (rows.map (· rank)) (states rank) := by
  induction rows generalizing states with
  | nil => exact .done (hempty rfl)
  | cons items rows ih =>
    have hrelated := hrows items List.mem_cons_self
    cases rows with
    | nil =>
      have hfirst := hlast states items hstates hrelated
      exact hfirst.bind fun values hvalues => .done hvalues
    | cons next rows =>
      have hfirst := hbody states items hstates hrelated
      have hrest := fun other hother =>
        hrows other (List.mem_cons_of_mem _ hother)
      exact hfirst.bind fun values hvalues =>
        ih hrest values hvalues nofun

/-- A loop in which every item takes the invariant one further. -/
theorem Together.forEach_count (invariant : ℕ → (ι → σ) → Prop)
    (related : (ι → τ) → Prop)
    {body : ι → Bool → σ → τ → RankProgram Op In Out ε σ}
    (hbody : ∀ count last states items, invariant count states →
      related items →
      Together reduce raised (invariant (count + 1)) fun rank =>
        body rank last (states rank) (items rank))
    (rows : List (ι → τ)) (hrows : ∀ items ∈ rows, related items)
    {count : ℕ} {states : ι → σ} (hstates : invariant count states) :
    Together reduce raised (invariant (count + rows.length)) fun rank =>
      RankProgram.forEach (body rank) (rows.map (· rank)) (states rank) := by
  induction rows generalizing count states with
  | nil => exact .done hstates
  | cons items rows ih =>
    have hrelated := hrows items List.mem_cons_self
    have hfirst := hbody count rows.isEmpty states items hstates hrelated
    have hrest := fun other hother =>
      hrows other (List.mem_cons_of_mem _ hother)
    have hlength : count + (items :: rows).length =
        count + 1 + rows.length := by
      rw [List.length_cons]
      omega
    rw [hlength]
    simp only [List.map_cons, RankProgram.forEach, List.isEmpty_map]
    exact hfirst.bind fun values hvalues => ih hrest hvalues

/-! ## Ranks that part -/

theorem not_together_of_ne (first second : ι) {op other : Op}
    {contribution : In op} {otherContribution : In other}
    {next : Out op → RankProgram Op In Out ε α}
    {otherNext : Out other → RankProgram Op In Out ε α} (hne : op ≠ other)
    (hfirst : programs first = .collect op contribution next)
    (hsecond : programs second = .collect other otherContribution otherNext) :
    ¬Together reduce raised post programs := by
  intro htogether
  cases htogether with
  | done _ | fail _ => cases hfirst
  | collect _ =>
    cases hfirst
    cases hsecond
    exact hne rfl

theorem Together.of_collect [Nonempty ι] {op : Op}
    {contributions : ι → In op}
    {next : ι → Out op → RankProgram Op In Out ε α}
    (htogether : Together reduce raised post fun rank =>
      .collect op (contributions rank) (next rank)) :
    Together reduce raised post fun rank =>
      next rank (reduce op contributions) := by
  generalize hprograms : (fun rank =>
    RankProgram.collect op (contributions rank) (next rank)) = programs
    at htogether
  have hrank := fun rank => congrFun hprograms rank
  cases htogether with
  | done _ | fail _ => cases hrank (Classical.arbitrary ι)
  | @collect other otherContributions otherNext hnext =>
    obtain rfl : op = other := by
      have hsame := hrank (Classical.arbitrary ι)
      injection hsame
    have hcontributions : contributions = otherContributions := by
      funext rank
      have hsame := hrank rank
      injection hsame
    have hnextSame : next = otherNext := by
      funext rank
      have hsame := hrank rank
      injection hsame
    rw [hcontributions, hnextSame]
    exact hnext

/-- What follows a part that cannot fail runs together with its values. -/
theorem Together.rest [Nonempty ι] {rest : ι → α → RankProgram Op In Out ε β}
    (hfirst : Together reduce (fun _ => False) post programs)
    (hall : Together reduce raised then' fun rank =>
      programs rank >>= rest rank) :
    ∃ values, post values ∧
      Together reduce raised then' fun rank => rest rank (values rank) := by
  induction hfirst with
  | done hvalues => exact ⟨_, hvalues, hall⟩
  | fail herror => exact herror.elim
  | collect _ ih => exact ih hall.of_collect

end RankProgram
end VerlVla
