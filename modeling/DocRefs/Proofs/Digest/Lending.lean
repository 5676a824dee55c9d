import DocRefs.Digest.Pool
import DocRefs.Table
import Mathlib.Data.List.Nodup
import Mathlib.Data.List.Perm.Subperm

/-!
# Texts on loan

A text that a pool lends is empty, only the loan that it is under changes it, and how many texts are
idle is told by counting loans (`Lending.Agrees.run`). Two empty texts look the same, so to follow
them each is given a brand by the loan that it is made for; writing and clearing leave the brand on.
No two texts ever have the same one, be they idle, on loan or taken out (`Desk.Accounted.run`), so a
text that is taken out is never lent again. Main result: `lending_of_history`.
-/
namespace DocRefs

open scoped List

/-! ### One operation -/

namespace Lending

section

variable {α : Type} (l : Lending α)

/-- Without a loan under the number, all loans are others. -/
theorem others_of_free {number : Nat} (free : l.loans.lookup number = none) :
    l.others number = l.loans := by
  rw [List.lookup_eq_none_iff] at free
  refine List.filter_eq_self.mpr fun entry member => ?_
  simpa using (bne_iff_ne.mp (free entry member)).symm

theorem lookup_others (number other : Nat) :
    (l.others number).lookup other = if other = number then none else l.loans.lookup other := by
  split
  next same => rw [same]; exact lookup_filter_self number l.loans
  next differ => exact lookup_filter_ne differ l.loans

theorem loans_giveBack [Clear α] (number : Nat) :
    (l.giveBack number).loans = l.others number := by
  unfold giveBack
  split
  · rfl
  next free => exact (l.others_of_free free).symm

/-- The pool passes over a thing that is taken out. -/
theorem keep_eq [Inhabited α] [Clear α] (number : Nat) :
    l.keep number = (l.loan? number, { l with loans := l.others number }) := by
  unfold keep loan?
  cases found : l.loans.lookup number with
  | none => simp [l.others_of_free found]
  | some loan => rfl

theorem loan?_giveBack [Clear α] (number other : Nat) :
    (l.giveBack number).loan? other = if other = number then none else l.loan? other := by
  rw [loan?, loans_giveBack, lookup_others]
  split <;> rfl

theorem loan?_keep [Inhabited α] [Clear α] (number other : Nat) :
    (l.keep number).2.loan? other = if other = number then none else l.loan? other := by
  rw [keep_eq, loan?, lookup_others]
  split <;> rfl

theorem loan?_lend [Inhabited α] [Clear α] (number other : Nat) :
    (l.lend number).2.loan? other =
      if other = number then some l.pool.take.1 else l.loan? other := by
  have before : (giveBack { l with pool := l.pool.take.2 } number).loan? other =
      if other = number then none else l.loan? other := loan?_giveBack _ number other
  unfold lend loan?
  rw [List.lookup_cons]
  by_cases same : other = number
  · simp [same]
  · rw [if_neg same, beq_false_of_ne same]
    exact before.trans (if_neg same)

theorem loan?_change (number other : Nat) (f : α → α) :
    (l.change number f).loan? other =
      if other = number then (l.loan? other).map f else l.loan? other := by
  have found := lookup_map_pairs (fun n (loan : Loan α) => if n = number then loan.change f else loan)
    l.loans other
  rw [loan?, change, found, loan?]
  split <;> cases l.loans.lookup other <;> rfl

theorem change_id (number : Nat) : l.change number id = l := by
  obtain ⟨pool, loans⟩ := l
  simp only [change, Lending.mk.injEq, true_and]
  calc loans.map (fun entry => (entry.1, if entry.1 = number then entry.2.change id else entry.2))
    _ = loans.map id := List.map_congr_left fun entry _ => by split <;> rfl
    _ = loans := List.map_id loans

end

end Lending

/-! ### Texts and counts -/

/-- What is done with the texts of a pool. -/
inductive LoanUse where
  | get (number : Nat)
  | push (number : Nat) (text : String)
  | take (number : Nat)
  | drop (number : Nat)

/-- How many texts are idle, and the text under each number, as counting and writing down tell. -/
structure Tally where
  idle : Nat := 0
  text? : Nat → Option String := fun _ => none

namespace Tally

/-- One more is idle, unless there are 64. -/
def returned (idle : Nat) : Nat := if idle < 64 then idle + 1 else idle

theorem returned_le {idle : Nat} (bounded : idle ≤ 64) : returned idle ≤ 64 := by
  unfold returned; split <;> omega

/-- A loan under a number that is in use ends when the next one under it has begun. -/
def apply (t : Tally) : LoanUse → Tally
  | .get number => {
      idle := if (t.text? number).isSome then returned (t.idle - 1) else t.idle - 1
      text? other := if other = number then some "" else t.text? other }
  | .push number text => {
      t with text? other := if other = number then (t.text? other).map (· ++ text) else t.text? other }
  | .take number => { t with text? other := if other = number then none else t.text? other }
  | .drop number => {
      idle := if (t.text? number).isSome then returned t.idle else t.idle
      text? other := if other = number then none else t.text? other }

def after (history : List LoanUse) : Tally := history.foldl apply {}

end Tally

namespace Lending

def apply (l : Lending String) : LoanUse → Lending String
  | .get number => (l.lend number).2
  | .push number text => l.change number (· ++ text)
  | .take number => (l.keep number).2
  | .drop number => l.giveBack number

def after (history : List LoanUse) : Lending String := history.foldl apply {}

/-- The lending is as it is told, what is idle is empty, and what is on loan is not detached. -/
structure Agrees (l : Lending String) (t : Tally) : Prop where
  idle : l.pool.size = t.idle
  bounded : t.idle ≤ 64
  text : ∀ number, l.loan? number = t.text? number
  empty : ∀ text ∈ l.pool.idle, text = ""
  attached : ∀ entry ∈ l.loans, entry.2.detached = false

namespace Agrees

variable {l : Lending String} {t : Tally}

/-- What is taken from the pool is empty: it is new, or was cleared when it came back. -/
theorem take_eq (agrees : l.Agrees t) : l.pool.take.1 = "" := by
  rcases l.pool.take_cases with new | idle
  · exact new
  · exact agrees.empty _ idle

theorem taken (agrees : l.Agrees t) :
    ({ l with pool := l.pool.take.2 } : Lending String).Agrees { t with idle := t.idle - 1 } where
  idle := by rw [Pool.size_take, agrees.idle]
  bounded := Nat.le_trans (Nat.sub_le _ _) agrees.bounded
  text := agrees.text
  empty text member := agrees.empty text (Pool.mem_of_mem_take member)
  attached := agrees.attached

theorem giveBack (agrees : l.Agrees t) (number : Nat) :
    (l.giveBack number).Agrees (t.apply (.drop number)) := by
  have text : ∀ other, (l.giveBack number).loan? other =
      if other = number then none else t.text? other := fun other => by
    rw [loan?_giveBack, agrees.text]
  have attached : ∀ entry ∈ (l.giveBack number).loans, entry.2.detached = false := by
    rw [loans_giveBack]
    exact fun entry member => agrees.attached entry (List.mem_filter.mp member).1
  cases found : l.loans.lookup number with
  | none =>
    have free : (t.text? number).isSome = false := by rw [← agrees.text, loan?, found]; rfl
    have same : l.giveBack number = l := by rw [Lending.giveBack, found]
    refine ⟨?_, ?_, text, by rw [same]; exact agrees.empty, attached⟩
    · rw [same, agrees.idle, Tally.apply, free]; rfl
    · rw [Tally.apply, free]; exact agrees.bounded
  | some loan =>
    have inUse : (t.text? number).isSome = true := by rw [← agrees.text, loan?, found]; rfl
    -- A detached loan would not go back to the pool, but no loan in use is one.
    have still : loan.detached = false := by
      obtain ⟨front, back, split, _⟩ := List.lookup_eq_some_iff.mp found
      exact agrees.attached (number, loan) (by simp [split])
    have pool : (l.giveBack number).pool = l.pool.give loan.item := by
      simp [Lending.giveBack, found, Loan.finish, still]
    refine ⟨?_, ?_, text, ?_, attached⟩
    · rw [pool, Pool.size_give, agrees.idle, Tally.apply, if_pos inUse]; rfl
    · rw [Tally.apply, if_pos inUse]; exact Tally.returned_le agrees.bounded
    · intro other member
      rw [pool] at member
      rcases Pool.mem_give member with rfl | before
      · rfl
      · exact agrees.empty other before

theorem apply (agrees : l.Agrees t) (use : LoanUse) : (l.apply use).Agrees (t.apply use) := by
  cases use with
  | get number =>
    -- The next text is taken before the one under the same number comes back.
    have ended := agrees.taken.giveBack number
    refine ⟨ended.idle, ended.bounded, fun other => ?_, ended.empty, ?_⟩
    · rw [Lending.apply, loan?_lend, agrees.take_eq, agrees.text]; rfl
    · exact List.forall_mem_cons.mpr ⟨rfl, ended.attached⟩
  | push number text =>
    refine ⟨agrees.idle, agrees.bounded, fun other => ?_, agrees.empty, fun entry member => ?_⟩
    · rw [Lending.apply, loan?_change, agrees.text]; rfl
    · obtain ⟨before, there, rfl⟩ := List.mem_map.mp member
      have still := agrees.attached before there
      dsimp only
      split <;> exact still
  | take number =>
    have text (other : Nat) : (l.keep number).2.loan? other =
        if other = number then none else t.text? other := by rw [loan?_keep, agrees.text]
    rw [Lending.apply]
    simp only [keep_eq] at text ⊢
    exact ⟨agrees.idle, agrees.bounded, text, agrees.empty, fun entry member =>
      agrees.attached entry (List.mem_filter.mp member).1⟩
  | drop number => exact agrees.giveBack number

theorem run (agrees : l.Agrees t) (history : List LoanUse) :
    (history.foldl Lending.apply l).Agrees (history.foldl Tally.apply t) := by
  induction history generalizing l t with
  | nil => exact agrees
  | cons use later ih => exact ih (agrees.apply use)

end Agrees

theorem agrees_after (history : List LoanUse) : (after history).Agrees (Tally.after history) :=
  Agrees.run ⟨rfl, Nat.zero_le _, fun _ => rfl, by simp, by simp⟩ history

end Lending

/-! ### Things that are told apart -/

/-- A thing with a brand, which tells it from others that look the same. -/
structure Branded (α : Type) where
  thing : α
  brand : Option Nat := none
  deriving DecidableEq

namespace Branded

variable {α : Type}

/-- A new thing has no brand yet. -/
instance [Inhabited α] : Inhabited (Branded α) := ⟨{ thing := default }⟩

instance [Clear α] : Clear (Branded α) := ⟨fun b => { b with thing := Clear.clear b.thing }⟩

/-- Gives a brand to a thing without one. -/
def stamp (serial : Nat) (b : Branded α) : Branded α := { b with brand := b.brand.or (some serial) }

def write (text : String) (b : Branded String) : Branded String :=
  { b with thing := b.thing ++ text }

end Branded

/-- A lending of things that are told apart, with the things that are taken out and the number of
loans so far. -/
structure Desk where
  lending : Lending (Branded String) := {}
  taken : List (Branded String) := []
  serial : Nat := 0

namespace Desk

/-- A thing gets its brand with the first loan that it is under. -/
def apply (d : Desk) : LoanUse → Desk
  | .get number => {
      d with
      lending := (d.lending.lend number).2.change number (.stamp d.serial)
      serial := d.serial + 1 }
  | .push number text => { d with lending := d.lending.change number (.write text) }
  | .take number => {
      d with
      lending := (d.lending.keep number).2
      taken := d.taken ++ (d.lending.keep number).1.toList }
  | .drop number => { d with lending := d.lending.giveBack number }

def after (history : List LoanUse) : Desk := history.foldl apply {}

end Desk

/-! ### Without the brands -/

section

variable {α β : Type} (f : α → β)

def Pool.map (p : Pool α) : Pool β := ⟨p.idle.map f⟩

def Loan.map (loan : Loan α) : Loan β := { item := f loan.item, detached := loan.detached }

/-- The same lending with other things. -/
def Lending.map (l : Lending α) : Lending β where
  pool := l.pool.map f
  loans := l.loans.map fun entry => (entry.1, entry.2.map f)

theorem Pool.map_take [Inhabited α] [Inhabited β] (fresh : f default = default) (p : Pool α) :
    (p.map f).take = (f p.take.1, p.take.2.map f) := by
  obtain ⟨idle⟩ := p
  cases idle with
  | nil => exact Prod.ext fresh.symm rfl
  | cons item rest => rfl

variable [Clear α] [Clear β] (cleared : ∀ a, f (Clear.clear a) = Clear.clear (f a))

include cleared

theorem Pool.map_give (p : Pool α) (item : α) :
    (p.give item).map f = (p.map f).give (f item) := by
  unfold give map
  rw [List.length_map]
  split <;> simp [cleared]

theorem Loan.map_finish (loan : Loan α) (p : Pool α) :
    (loan.finish p).map f = (loan.map f).finish (p.map f) := by
  unfold finish map
  split
  · rfl
  · exact Pool.map_give f cleared p loan.item

end

namespace Lending

variable {α β : Type} (f : α → β) (l : Lending α)

theorem lookup_map (number : Nat) :
    (l.map f).loans.lookup number = (l.loans.lookup number).map (Loan.map f) :=
  lookup_map_pairs (fun _ => Loan.map f) l.loans number

theorem others_map (number : Nat) :
    (l.map f).others number = (l.others number).map fun entry => (entry.1, entry.2.map f) := by
  rw [others, map, List.filter_map]
  rfl

theorem map_change {g : α → α} {g' : β → β} (same : ∀ a, f (g a) = g' (f a)) (number : Nat) :
    (l.change number g).map f = (l.map f).change number g' := by
  simp only [map, change, List.map_map, Lending.mk.injEq, true_and]
  refine List.map_congr_left fun entry _ => ?_
  by_cases here : entry.1 = number <;> simp [here, Loan.map, Loan.change, same]

variable [Clear α] [Clear β] (cleared : ∀ a, f (Clear.clear a) = Clear.clear (f a))

theorem map_keep [Inhabited α] [Inhabited β] (number : Nat) :
    (l.keep number).2.map f = ((l.map f).keep number).2 := by
  rw [keep_eq, keep_eq, others_map]
  rfl

include cleared

theorem map_giveBack (number : Nat) : (l.giveBack number).map f = (l.map f).giveBack number := by
  have found := l.lookup_map f number
  unfold giveBack
  rw [found]
  cases l.loans.lookup number with
  | none => rfl
  | some loan =>
    rw [Option.map_some, others_map]
    exact congrArg (Lending.mk · _) (loan.map_finish f cleared l.pool)

theorem map_lend [Inhabited α] [Inhabited β] (fresh : f default = default) (number : Nat) :
    (l.lend number).2.map f = ((l.map f).lend number).2 := by
  have ended := map_giveBack f { l with pool := l.pool.take.2 } cleared number
  have took : (l.map f).pool.take = _ := Pool.map_take f fresh l.pool
  simp only [lend, took]
  exact congrArg
    (fun m : Lending β => { m with loans := (number, ⟨f l.pool.take.1, false⟩) :: m.loans }) ended

end Lending

namespace Desk

/-- Brands make no difference to the things. -/
theorem map_apply (d : Desk) (use : LoanUse) :
    (d.apply use).lending.map Branded.thing = (d.lending.map Branded.thing).apply use := by
  have cleared : ∀ b : Branded String, (Clear.clear b).thing = Clear.clear b.thing := fun _ => rfl
  cases use with
  | get number =>
    have stamped : ∀ b : Branded String, (b.stamp d.serial).thing = id b.thing := fun _ => rfl
    calc (d.apply (.get number)).lending.map Branded.thing
      _ = ((d.lending.lend number).2.map Branded.thing).change number id :=
          Lending.map_change _ _ stamped number
      _ = (d.lending.lend number).2.map Branded.thing := Lending.change_id _ number
      _ = ((d.lending.map Branded.thing).lend number).2 :=
          Lending.map_lend _ _ cleared rfl number
  | push number text =>
    have written : ∀ b : Branded String, (b.write text).thing = b.thing ++ text := fun _ => rfl
    exact Lending.map_change _ _ written number
  | take number => exact Lending.map_keep _ _ number
  | drop number => exact Lending.map_giveBack _ _ cleared number

theorem map_run (d : Desk) (history : List LoanUse) :
    (history.foldl apply d).lending.map Branded.thing =
      history.foldl Lending.apply (d.lending.map Branded.thing) := by
  induction history generalizing d with
  | nil => rfl
  | cons use later ih => rw [List.foldl_cons, List.foldl_cons, ih, map_apply]

theorem map_after (history : List LoanUse) :
    (after history).lending.map Branded.thing = Lending.after history :=
  map_run {} history

end Desk

/-! ### Brands -/

namespace Lending

section

variable {α : Type}

/-- The brands of what is idle and of what is on loan. -/
def brands (l : Lending (Branded α)) : List (Option Nat) :=
  l.pool.idle.map (·.brand) ++ l.loans.map (·.2.item.brand)

variable {l : Lending (Branded α)} {number : Nat}

/-- The thing of a loan is none of those of the others. -/
theorem subperm_others {loan : Loan (Branded α)} (found : l.loans.lookup number = some loan) :
    loan.item.brand :: (l.others number).map (·.2.item.brand) <+~
      l.loans.map (·.2.item.brand) := by
  obtain ⟨front, back, split, _⟩ := List.lookup_eq_some_iff.mp found
  have others : l.others number <+ front ++ back := by
    rw [Lending.others, split, List.filter_append, List.filter_cons_of_neg (by simp)]
    exact List.filter_sublist.append List.filter_sublist
  have whole : l.loans.map (·.2.item.brand) ~
      ((number, loan) :: (front ++ back)).map (·.2.item.brand) := by
    rw [split]
    exact List.perm_middle.map _
  exact ((others.map _).cons_cons _).subperm.trans whole.symm.subperm

theorem sublist_finish [Clear α] (loan : Loan (Branded α)) (p : Pool (Branded α)) :
    (loan.finish p).idle.map (·.brand) <+ loan.item.brand :: p.idle.map (·.brand) := by
  unfold Loan.finish Pool.give
  split
  · exact List.sublist_cons_self ..
  · split
    · exact List.Sublist.refl _
    · exact List.sublist_cons_self ..

theorem subperm_giveBack [Clear α] (l : Lending (Branded α)) (number : Nat) :
    (l.giveBack number).brands <+~ l.brands := by
  cases found : l.loans.lookup number with
  | none => rw [giveBack, found]
  | some loan =>
    have back : (loan.finish l.pool).idle.map (·.brand) ++ (l.others number).map (·.2.item.brand) <+~
        loan.item.brand :: l.pool.idle.map (·.brand) ++ (l.others number).map (·.2.item.brand) :=
      ((sublist_finish loan l.pool).append_right _).subperm
    rw [giveBack, found]
    refine back.trans (List.perm_middle.symm.subperm.trans ?_)
    exact (List.subperm_append_left _).mpr (subperm_others found)

theorem subperm_keep [Inhabited α] [Clear α] (l : Lending (Branded α)) (number : Nat) :
    (l.keep number).2.brands ++ (l.keep number).1.toList.map (·.brand) <+~ l.brands := by
  rw [keep_eq, loan?]
  cases found : l.loans.lookup number with
  | none => simp [l.others_of_free found, List.Subperm.refl]
  | some loan =>
    have last : (l.others number).map (·.2.item.brand) ++ [loan.item.brand] <+~
        l.loans.map (·.2.item.brand) :=
      (List.perm_append_singleton _ _).subperm.trans (subperm_others found)
    rw [brands, List.append_assoc]
    exact (List.subperm_append_left _).mpr last

/-- A thing that is taken from the pool has a brand, or is new and gets one. -/
theorem sublist_stamp [Inhabited α] (p : Pool (Branded α)) (serial : Nat)
    (known : ∀ item ∈ p.idle, item.brand.isSome = true) :
    (p.take.1.stamp serial).brand :: p.take.2.idle.map (·.brand) <+
      some serial :: p.idle.map (·.brand) := by
  obtain ⟨idle⟩ := p
  cases idle with
  | nil => exact List.Sublist.refl _
  | cons item rest =>
    have same : (item.stamp serial).brand = item.brand :=
      Option.or_of_isSome (known item List.mem_cons_self)
    exact same ▸ List.sublist_cons_self ..

theorem subperm_lend [Inhabited α] [Clear α] (l : Lending (Branded α)) (number serial : Nat)
    (known : ∀ item ∈ l.pool.idle, item.brand.isSome = true) :
    ((l.lend number).2.change number (.stamp serial)).brands <+~ some serial :: l.brands := by
  let ended := giveBack { l with pool := l.pool.take.2 } number
  have ends : ended.brands <+~ brands { l with pool := l.pool.take.2 } := subperm_giveBack _ number
  -- The loans that go on keep their things, since none of them is under the number.
  have others : (ended.loans.map fun entry =>
      (entry.1, if entry.1 = number then entry.2.change (.stamp serial) else entry.2)) =
        ended.loans.map id := by
    refine List.map_congr_left fun entry member => ?_
    rw [loans_giveBack] at member
    have apart : entry.1 ≠ number := of_decide_eq_true (List.mem_filter.mp member).2
    rw [if_neg apart]
    rfl
  have loans : ((l.lend number).2.change number (.stamp serial)).loans =
      (number, { item := l.pool.take.1.stamp serial }) :: ended.loans := by
    rw [List.map_id] at others
    have first : (if number = number then
        ({ item := l.pool.take.1 } : Loan (Branded α)).change (.stamp serial)
        else { item := l.pool.take.1 }) = { item := l.pool.take.1.stamp serial } := if_pos rfl
    exact congrArg₂ (fun loan rest => (number, loan) :: rest) first others
  have lent : ((l.lend number).2.change number (.stamp serial)).brands ~
      (l.pool.take.1.stamp serial).brand :: ended.brands := by
    rw [brands, loans, List.map_cons]
    exact List.perm_middle
  refine lent.subperm.trans (((List.subperm_cons _).mpr ends).trans ?_)
  exact ((sublist_stamp l.pool serial known).append_right _).subperm

theorem brands_change {f : Branded α → Branded α} (same : ∀ b, (f b).brand = b.brand)
    (l : Lending (Branded α)) (number : Nat) : (l.change number f).brands = l.brands := by
  rw [brands, brands, change, List.map_map]
  refine congrArg _ (List.map_congr_left fun entry _ => ?_)
  by_cases here : entry.1 = number <;> simp [here, Loan.change, same]

end

end Lending

/-- The brands are different, and were given by the first loans, as many as `limit`. -/
structure DistinctBelow (limit : Nat) (brands : List (Option Nat)) : Prop where
  known : ∀ brand ∈ brands, ∃ serial < limit, brand = some serial
  distinct : brands.Nodup

theorem DistinctBelow.subperm {limit : Nat} {brands fewer : List (Option Nat)}
    (apart : DistinctBelow limit brands) (sub : fewer <+~ brands) :
    DistinctBelow limit fewer where
  known brand member := apart.known brand (sub.subset member)
  distinct := by
    obtain ⟨part, same, within⟩ := sub
    exact same.nodup_iff.mp (apart.distinct.sublist within)

/-- One more loan can give a brand that is new. -/
theorem DistinctBelow.cons {limit : Nat} {brands : List (Option Nat)}
    (apart : DistinctBelow limit brands) :
    DistinctBelow (limit + 1) (some limit :: brands) where
  known := by
    refine List.forall_mem_cons.mpr ⟨⟨limit, Nat.lt_succ_self _, rfl⟩, fun brand member => ?_⟩
    obtain ⟨serial, below, same⟩ := apart.known brand member
    exact ⟨serial, Nat.lt_succ_of_lt below, same⟩
  distinct := by
    refine List.nodup_cons.mpr ⟨fun member => ?_, apart.distinct⟩
    obtain ⟨serial, below, same⟩ := apart.known _ member
    exact Nat.ne_of_lt below (Option.some.inj same).symm

namespace Desk

/-- The brands of all that is idle, on loan or taken out. -/
def brands (d : Desk) : List (Option Nat) := d.lending.brands ++ d.taken.map (·.brand)

/-- All things have brands, and different ones. -/
def Accounted (d : Desk) : Prop := DistinctBelow d.serial d.brands

namespace Accounted

variable {d : Desk}

theorem isSome_of_idle (accounted : d.Accounted) :
    ∀ item ∈ d.lending.pool.idle, item.brand.isSome = true := by
  intro item member
  have listed : item.brand ∈ d.brands := by
    simp only [brands, Lending.brands, List.mem_append, List.mem_map]
    exact .inl (.inl ⟨item, member, rfl⟩)
  obtain ⟨serial, _, same⟩ := accounted.known _ listed
  rw [same]
  rfl

theorem apply (accounted : d.Accounted) (use : LoanUse) : (d.apply use).Accounted := by
  cases use with
  | get number =>
    have lent := Lending.subperm_lend d.lending number d.serial accounted.isSome_of_idle
    exact (DistinctBelow.cons accounted).subperm ((List.subperm_append_right _).mpr lent)
  | push number text =>
    have kept : ∀ b : Branded String, (b.write text).brand = b.brand := fun _ => rfl
    have same : (d.apply (.push number text)).brands = d.brands :=
      congrArg (· ++ _) (Lending.brands_change kept d.lending number)
    rw [Accounted, same]
    exact accounted
  | take number =>
    have kept := Lending.subperm_keep d.lending number
    have moved : (d.apply (.take number)).brands ~ (d.lending.keep number).2.brands ++
        (d.lending.keep number).1.toList.map (·.brand) ++ d.taken.map (·.brand) := by
      rw [brands, Desk.apply, List.map_append, List.append_assoc]
      exact List.perm_append_comm.append_left _
    exact DistinctBelow.subperm accounted
      (moved.subperm.trans ((List.subperm_append_right _).mpr kept))
  | drop number =>
    have ended := Lending.subperm_giveBack d.lending number
    exact DistinctBelow.subperm accounted ((List.subperm_append_right _).mpr ended)

theorem run (accounted : d.Accounted) (history : List LoanUse) :
    (history.foldl Desk.apply d).Accounted := by
  induction history generalizing d with
  | nil => exact accounted
  | cons use later ih => exact ih (accounted.apply use)

end Accounted

theorem accounted_after (history : List LoanUse) : (after history).Accounted :=
  Accounted.run ⟨by simp [brands, Lending.brands], by simp [brands, Lending.brands]⟩ history

/-- What is taken out stays as it is. -/
theorem taken_grows (d : Desk) (history : List LoanUse) :
    d.taken <+: (history.foldl apply d).taken := by
  induction history generalizing d with
  | nil => exact List.prefix_rfl
  | cons use later ih =>
    refine List.IsPrefix.trans ?_ (ih (d.apply use))
    cases use with
    | take number => exact List.prefix_append ..
    | get number => exact List.prefix_rfl
    | push number text => exact List.prefix_rfl
    | drop number => exact List.prefix_rfl

/-- What is taken out is not lent again. -/
theorem taken_after (history later : List LoanUse) {number : Nat} {text : Branded String}
    (lent : (after history).lending.loan? number = some text) :
    text ∈ (after (history ++ .take number :: later)).taken ∧
      text.brand ∉ (after (history ++ .take number :: later)).lending.brands := by
  have whole : after (history ++ .take number :: later) =
      later.foldl apply ((after history).apply (.take number)) := by
    rw [after, List.foldl_append]
    rfl
  have there : text ∈ ((after history).apply (.take number)).taken := by
    simp [apply, Lending.keep_eq, lent]
  have stays : text ∈ (after (history ++ .take number :: later)).taken := by
    rw [whole]
    exact (taken_grows _ later).subset there
  -- It is among those taken out, and none of these has the brand of one in the lending.
  have distinct := (accounted_after (history ++ .take number :: later)).distinct
  rw [brands, List.nodup_append] at distinct
  exact ⟨stays, fun again => distinct.2.2 _ again _ (List.mem_map_of_mem stays) rfl⟩

end Desk

/-- Whatever is done with the texts of a pool: a text that is lent is empty; what is on loan under a
number, and is taken from it, is what was pushed under that number since then; as many are idle as
counting tells, and never more than 64. All texts can be told apart, and one that is taken out stays
as it is and is neither idle nor lent ever after. -/
theorem lending_of_history (history : List LoanUse) :
    let l := Lending.after history
    let t := Tally.after history
    let d := Desk.after history
    (l.pool.size = t.idle ∧ t.idle ≤ 64) ∧
      (∀ number, (l.lend number).1 = "" ∧ l.loan? number = t.text? number ∧
        (l.keep number).1 = t.text? number) ∧
      d.lending.map Branded.thing = l ∧
      (d.brands.Nodup ∧ none ∉ d.brands) ∧
      ∀ number text, d.lending.loan? number = some text → ∀ later,
        text ∈ (Desk.after (history ++ .take number :: later)).taken ∧
          text.brand ∉ (Desk.after (history ++ .take number :: later)).lending.brands := by
  intro l t d
  have agrees := Lending.agrees_after history
  have accounted := Desk.accounted_after history
  refine ⟨⟨agrees.idle, agrees.bounded⟩, fun number => ⟨agrees.take_eq, agrees.text number, ?_⟩,
    Desk.map_after history, ⟨accounted.distinct, fun without => ?_⟩,
    fun number text lent later => Desk.taken_after history later lent⟩
  · rw [Lending.keep_eq]
    exact agrees.text number
  · obtain ⟨_, _, same⟩ := accounted.known none without
    cases same

/-- Two texts more than the pool keeps, all given back, and the last that it kept lent again. -/
def crowd : List LoanUse :=
  (List.range 66).map .get ++ (List.range 66).map .drop ++ [.get 0, .push 0 "kept"]

theorem lending_of_history_crowd :
    (Lending.after crowd).pool.size = 63 ∧
      (Desk.after crowd).lending.loan? 0 = some { thing := "kept", brand := some 63 } ∧
      some 63 ∉ (Desk.after (crowd ++ [.take 0, .get 1, .get 2])).lending.brands := by
  obtain ⟨⟨size, _⟩, _, _, _, taken⟩ := lending_of_history crowd
  have lent : (Desk.after crowd).lending.loan? 0 =
      some { thing := "kept", brand := some 63 } := by decide +kernel
  refine ⟨size.trans (by decide +kernel), lent, ?_⟩
  exact (taken 0 _ lent [.get 1, .get 2]).2

end DocRefs
