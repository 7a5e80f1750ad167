import ClimateLink.Packet.Control
import ClimateLink.Proofs.Frame.Offsets
import ClimateLink.Proofs.Packet.Bits

/-!
# Operations that can be breached

Reading a byte past the end, taking a larger number from a smaller one, cutting a string into
pieces of no bytes: operations on bytes and sizes have bounds, and a program that leaves them has
no answer. The definitions of this library are total and give some value there. Here the same work
is written with operations that say when their bounds are left, so that keeping them is something
that can be proved. A loop, too, has a bound on its rounds, and needing more is a breach.

Sizes are those of a machine of 32 bits. Memory is taken for granted.

- `demand_of`: within its bounds an operation gives its value.
- `bind_sure`, `mapM_sure`: a computation that is sure of its answer in each step is sure of it.
-/

namespace ClimateLink

open Wire

/-! ## Guarded computations -/

/-- What goes wrong when the bounds of an operation are left. -/
inductive Guarded.Breach where
  /-- The byte at `i` of `size` bytes. -/
  | index (i size : Nat)
  /-- The bytes from `start` up to `stop` of `size` bytes. -/
  | stretch (start stop size : Nat)
  /-- Taking `b` from `a`. -/
  | difference (a b : Nat)
  /-- A size that a machine cannot hold. -/
  | size (n : Nat)
  /-- Pieces of no bytes. -/
  | width
  /-- A number that is not between zero and a bound. -/
  | number (n : Int) (bound : Nat)
  /-- Bits that do not lie in a byte. -/
  | bits (offset width : Nat)
  /-- Numbers that a byte does not hold side by side. -/
  | fields
  /-- More rounds of a loop than it may take. -/
  | rounds
  deriving DecidableEq, Repr

/-- A computation that gives a value or ends in a breach. -/
abbrev Guarded (α : Type) := Except Guarded.Breach α

namespace Guarded

variable {ε α β : Type}

/-- The value `a`, as long as the bounds are kept. -/
def demand (ok : Prop) [Decidable ok] (breach : Breach) (a : α) : Guarded α :=
  if ok then pure a else throw breach

theorem demand_of {ok : Prop} [Decidable ok] {breach : Breach} {a : α} (h : ok) :
    demand ok breach a = pure a := if_pos h

/-! ## Strings of bytes -/

/-- The byte at an offset. -/
def index (bs : Bytes) (i : Nat) : Guarded UInt8 :=
  demand (i < bs.length) (.index i bs.length) (bs.getD i 0)

/-- The bytes from one offset up to another. -/
def slice (bs : Bytes) (start stop : Nat) : Guarded Bytes :=
  demand (start ≤ stop ∧ stop ≤ bs.length) (.stretch start stop bs.length)
    ((bs.take stop).drop start)

/-- The first `n` bytes, and those behind them. -/
def split (bs : Bytes) (n : Nat) : Guarded (Bytes × Bytes) :=
  demand (n ≤ bs.length) (.stretch 0 n bs.length) (bs.take n, bs.drop n)

/-- What is left behind the first `n` bytes. -/
def advance (bs : Bytes) (n : Nat) : Guarded Bytes :=
  demand (n ≤ bs.length) (.stretch 0 n bs.length) (bs.drop n)

/-- The string with other bytes in place of those from one offset up to another. -/
def put (bs : Bytes) (start stop : Nat) (new : Bytes) : Guarded Bytes :=
  demand (start ≤ stop ∧ stop ≤ bs.length ∧ new.length = stop - start)
    (.stretch start stop bs.length) (bs.take start ++ new ++ bs.drop stop)

/-- The pieces of `width` bytes that a string falls into, without a rest that is shorter. -/
def chunks (bs : Bytes) (width : Nat) : Guarded (List Bytes) :=
  demand (0 < width) .width (Control.slices width (bs.length / width) bs)

/-- The word whose first byte is at an offset. -/
def wordAt (bs : Bytes) (i : Nat) : Guarded UInt16 :=
  return word (← index bs i) (← index bs (i + 1))

/-! ## Sizes and numbers -/

/-- Sizes are smaller than this. -/
def sizeBound : Nat := 0x100000000

def plus (a b : Nat) : Guarded Nat := demand (a + b < sizeBound) (.size (a + b)) (a + b)

def times (a b : Nat) : Guarded Nat := demand (a * b < sizeBound) (.size (a * b)) (a * b)

def minus (a b : Nat) : Guarded Nat := demand (b ≤ a) (.difference a b) (a - b)

/-- A number that has to fit a field with `bound` values. -/
def narrow (bound : Nat) (n : Int) : Guarded Nat :=
  demand (0 ≤ n ∧ n < bound) (.number n bound) n.toNat

/-! ## Bits -/

/-- The number in the bits of a byte from an offset on. -/
def field (b : UInt8) (offset width : Nat) : Guarded UInt8 :=
  demand (0 < width ∧ offset + width ≤ 8) (.bits offset width) (bits b offset width)

/-- Whether a bit is set. -/
def flag (b : UInt8) (offset : Nat) : Guarded Bool := return (← field b offset 1) == 1

/-- A number fits the width that stands before it. -/
def Fits (field : Nat × Nat) : Prop := 0 < field.1 ∧ field.2 < 1 <<< field.1

instance (field : Nat × Nat) : Decidable (Fits field) :=
  inferInstanceAs (Decidable (0 < field.1 ∧ field.2 < 1 <<< field.1))

/-- The byte that holds numbers side by side. They fill it, and each fits its place. -/
def pack (fields : List (Nat × Nat)) : Guarded UInt8 :=
  demand (widths fields = 8 ∧ ∀ f ∈ fields, Fits f) .fields (Wire.pack fields)

/-! ## Loops -/

/-- Repeats a step until it gives a result, for `n` rounds at most. -/
def rounds {m : Type → Type} [Monad m] [MonadLiftT Guarded m] (step : α → m (α ⊕ β)) :
    (n : Nat) → α → m β
  | 0, _ => liftM (throw .rounds : Guarded β)
  | n + 1, a => do
    match ← step a with
    | .inl next => rounds step n next
    | .inr b => return b

/-! ## Within the bounds -/

theorem index_of {bs : Bytes} {i : Nat} (h : i < bs.length) : index bs i = pure (bs.getD i 0) :=
  demand_of h

theorem slice_of {bs : Bytes} {start stop : Nat} (ordered : start ≤ stop)
    (inside : stop ≤ bs.length) : slice bs start stop = pure ((bs.take stop).drop start) :=
  demand_of ⟨ordered, inside⟩

theorem split_of {bs : Bytes} {n : Nat} (h : n ≤ bs.length) :
    split bs n = pure (bs.take n, bs.drop n) := demand_of h

theorem advance_of {bs : Bytes} {n : Nat} (h : n ≤ bs.length) :
    advance bs n = pure (bs.drop n) := demand_of h

theorem chunks_of {bs : Bytes} {width : Nat} (h : 0 < width) :
    chunks bs width = pure (Control.slices width (bs.length / width) bs) := demand_of h

theorem wordAt_of {bs : Bytes} {i : Nat} (h : i + 1 < bs.length) :
    wordAt bs i = pure (Wire.wordAt bs i) := by
  rw [wordAt, index_of (Nat.lt_of_succ_lt h), index_of h]
  rfl

theorem plus_of {a b : Nat} (h : a + b < sizeBound) : plus a b = pure (a + b) := demand_of h

theorem times_of {a b : Nat} (h : a * b < sizeBound) : times a b = pure (a * b) := demand_of h

theorem minus_of {a b : Nat} (h : b ≤ a) : minus a b = pure (a - b) := demand_of h

theorem narrow_of {bound n : Nat} (h : n < bound) : narrow bound n = pure n :=
  demand_of ⟨Int.natCast_nonneg n, Int.ofNat_lt.2 h⟩

theorem pack_of {fields : List (Nat × Nat)} (filled : widths fields = 8)
    (fit : ∀ f ∈ fields, Fits f) : pack fields = pure (Wire.pack fields) :=
  demand_of ⟨filled, fit⟩

section

variable {m : Type → Type} [Monad m] [LawfulMonad m] [MonadLiftT Guarded m] {step : α → m (α ⊕ β)}

theorem rounds_of_inl {a next : α} (h : step a = pure (.inl next)) (n : Nat) :
    rounds step (n + 1) a = rounds step n next := by
  rw [rounds, h, pure_bind]

theorem rounds_of_inr {a : α} {b : β} (h : step a = pure (.inr b)) (n : Nat) :
    rounds step (n + 1) a = pure b := by
  rw [rounds, h, pure_bind]

end

/-! ## Answers that are sure -/

/-- The answer of a computation without guards, which is a value or a fault. -/
def sure (x : Except ε α) : ExceptT ε Guarded α := ExceptT.mk (pure x)

theorem liftM_pure (a : α) : (liftM (pure a : Guarded α) : ExceptT ε Guarded α) = pure a := rfl

theorem sure_ok_bind (a : α) (f : α → ExceptT ε Guarded β) : sure (.ok a) >>= f = f a := rfl

/-- A computation that is sure of its answer in each step is sure of it. -/
theorem bind_sure {x : ExceptT ε Guarded α} {y : Except ε α} {f : α → ExceptT ε Guarded β}
    {g : α → Except ε β} (first : x = sure y) (next : ∀ a, y = .ok a → f a = sure (g a)) :
    x >>= f = sure (y >>= g) := by
  rw [first]
  cases y with
  | error e => rfl
  | ok a => exact next a rfl

/-- A loop ends with a fault of its step. -/
theorem rounds_of_fault {step : α → ExceptT ε Guarded (α ⊕ β)} {a : α} {e : ε}
    (h : step a = sure (.error e)) (n : Nat) : rounds step (n + 1) a = sure (.error e) := by
  rw [rounds, h]
  rfl

theorem map_sure (f : α → β) (x : Except ε α) : f <$> sure x = sure (f <$> x) := by
  cases x <;> rfl

theorem mapM_sure {f : α → ExceptT ε Guarded β} {g : α → Except ε β} {as : List α}
    (each : ∀ a ∈ as, f a = sure (g a)) : as.mapM f = sure (as.mapM g) := by
  induction as with
  | nil => rfl
  | cons a as ih =>
    rw [List.mapM_cons, List.mapM_cons]
    refine bind_sure (each a List.mem_cons_self) fun b _ => ?_
    refine bind_sure (ih fun c among => each c (List.mem_cons_of_mem a among)) fun bs _ => rfl

/-- Without guards to breach, what is kept of a list is one thing for each element. -/
theorem mapM_filterMap {f : α → Guarded β} {g : α → Option β} {as : List α}
    (each : ∀ a ∈ as, ∃ b, g a = some b ∧ f a = pure b) : as.mapM f = pure (as.filterMap g) := by
  induction as with
  | nil => rfl
  | cons a as ih =>
    obtain ⟨b, found, first⟩ := each a List.mem_cons_self
    rw [List.mapM_cons, first, ih fun c among => each c (List.mem_cons_of_mem a among),
      List.filterMap_cons_some found]
    rfl

end Guarded

end ClimateLink
