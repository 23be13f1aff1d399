import DasiModel.Generators

/-!
# A DASI session

`dasi::DasiImpl` turns keys and queries into what FDB takes. FDB itself is not
part of this repository: `Fdb` collects the operations used, acting on an
outside state `W`.
-/

namespace Session
open Texts Exceptions DasiKey Generators

universe u v w

/-- The arguments of `fdb_.archive`: the bindings set on the FDB key in turn, and
the bytes that it reads through the pointer. With `none` the read leaves the array,
which is undefined: nothing is known of the call. -/
structure Handed where
  key : List (Bytes × Bytes)
  data : Option Bytes
  deriving DecidableEq

/-- `length` bytes from a pointer to the start of `region`. -/
def readRegion (region : Bytes) (length : Nat) : Option Bytes :=
  if length ≤ region.length then some (region.take length) else none

theorem readRegion_eq_whole_iff (region : Bytes) (length : Nat) :
    readRegion region length = some region ↔ length = region.length := by
  rw [readRegion]
  constructor
  · intro h
    split at h
    · rename_i inside
      have cut := congrArg List.length (Option.some.inj h)
      rw [List.length_take] at cut
      omega
    · cases h
  · rintro rfl
    rw [if_pos (Nat.le_refl _), List.take_length]

structure MarsRequest where
  verb : Bytes
  values : List (Bytes × List Bytes)
  deriving DecidableEq

/-- `DasiImpl::queryToMarsRequest`. -/
def queryToMarsRequest (query : Query) : MarsRequest := ⟨ascii "retrieve", query.items⟩

structure Fdb (F : Type u) (W : Type v) where
  /-- `construct_config` and the constructor of `fdb5::FDB`. -/
  open_ : Bytes → W → Except Exception F × W
  archive : F → Handed → W → Except Exception Unit × W
  wipe : F → MarsRequest → Bool → Bool → Bool →
    W → Except Exception (FdbIterator FdbWipeElement) × W
  purge : F → MarsRequest → Bool → Bool → W → Except Exception (FdbIterator Bytes) × W
  list : F → MarsRequest → Bool → W → Except Exception (FdbIterator FdbListElement) × W
  inspect : F → MarsRequest → W → Except Exception (FdbIterator FdbListElement) × W
  flush : F → W → Except Exception Unit × W

/-- `DasiImpl::archive`; `R` is whatever the call of FDB results in. -/
def archive {R : Type w} (fdbArchive : Handed → R) (key : Key) (data : Bytes) (length : Nat) : R :=
  fdbArchive ⟨key.items, readRegion data length⟩

/-- `dasi_archive`, for arguments that are not null. -/
def dasiArchive {R : Type w} (throw : Exception → R) (fdbArchive : Handed → R) (key : Key)
    (data : Bytes) (length : Int) : R :=
  match assert (0 ≤ length) "length >= 0" with
  | .error x => throw x
  | .ok () => archive fdbArchive key data length.toNat

end Session
