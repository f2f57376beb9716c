import QoSMos.Build.Program
import QoSMos.Lib.LittleEndian

/-!
# Arrays of a fixed size

Stores into an array and loads of the little-endian machine. C leaves undefined what a store
behind the end of the array does.
-/

namespace QoSMos

/-- Store bytes in an array of so many bytes. -/
def storeInside (size : Nat) (array : Memory) (offset : Nat) (bytes : List UInt8)
    (function operation : String) : Except Halt Memory :=
  if offset + bytes.length ≤ size then .ok (writeBytes array offset bytes)
  else .error (.undefined function operation)

/-- A load of `w` bytes. -/
def leAt (w : Nat) (b : Memory) (p : Nat) : Nat := LittleEndian.decode (readBytes b p w)

/-- Store numbers of `n` bytes, each at its offset, one after the other. -/
def storeAll (n : Nat) (b : Memory) (stores : List (Nat × Nat)) : Memory :=
  stores.foldl (fun b store => writeBytes b store.1 (LittleEndian.encode n store.2)) b

section Store

variable {size offset w p n : Nat} {array b b' : Memory} {bytes : List UInt8}
  {function operation : String}

theorem storeInside_of_le (h : offset + bytes.length ≤ size) :
    storeInside size array offset bytes function operation = .ok (writeBytes array offset bytes) :=
  if_pos h

theorem storeInside_of_lt (h : size < offset + bytes.length) :
    storeInside size array offset bytes function operation =
      .error (.undefined function operation) :=
  if_neg (Nat.not_le.mpr h)

theorem leAt_congr (h : ∀ i < w, b (p + i) = b' (p + i)) : leAt w b p = leAt w b' p :=
  congrArg LittleEndian.decode (readBytes_congr h)

/-- A store is read back, up to its width. -/
theorem leAt_writeBytes (hw : w ≤ n) {x : Nat} :
    leAt w (writeBytes b p (LittleEndian.encode n x)) p = x % 256 ^ w := by
  have hread : readBytes (writeBytes b p (LittleEndian.encode n x)) p w =
      LittleEndian.encode w x := by
    have hall : readBytes (writeBytes b p (LittleEndian.encode n x)) p (w + (n - w)) =
        LittleEndian.encode n x := by
      have hlength : w + (n - w) = (LittleEndian.encode n x).length := by
        rw [LittleEndian.length_encode]
        omega
      rw [hlength, readBytes_writeBytes]
    rw [readBytes_append] at hall
    have htake := congrArg (List.take w) hall
    rw [List.take_left' length_readBytes, LittleEndian.take_encode hw] at htake
    exact htake
  rw [leAt, hread, LittleEndian.decode_encode]

/-- A store somewhere else is not seen. -/
theorem leAt_writeBytes_outside (h : p + w ≤ offset ∨ offset + bytes.length ≤ p) :
    leAt w (writeBytes b offset bytes) p = leAt w b p := by
  apply leAt_congr
  intro i hi
  exact writeBytes_outside (by omega)

/-- A number is read back out of the bytes that it was stored with. -/
theorem leAt_writeBytes_append (pre : List UInt8) {post : List UInt8} {k x : Nat}
    (hbytes : bytes = pre ++ (LittleEndian.encode n x ++ post)) (hk : pre.length = k) (hw : w ≤ n) :
    leAt w (writeBytes b p bytes) (p + k) = x % 256 ^ w := by
  subst hbytes hk
  rw [← writeBytes_append, ← writeBytes_append, leAt_writeBytes_outside, leAt_writeBytes hw]
  left
  rw [LittleEndian.length_encode]
  omega

theorem storeAll_outside {stores : List (Nat × Nat)} {q : Nat}
    (h : ∀ store ∈ stores, q < store.1 ∨ store.1 + n ≤ q) : storeAll n b stores q = b q := by
  induction stores generalizing b with
  | nil => rfl
  | cons store stores ih =>
    obtain ⟨hstore, hstores⟩ := List.forall_mem_cons.mp h
    refine (ih hstores).trans (writeBytes_outside ?_)
    rwa [LittleEndian.length_encode]

/-- What is stored is read back as far as the stores after it leave it alone. The stores before may
overlap it. -/
theorem leAt_storeAll {before after : List (Nat × Nat)} {x : Nat} (hw : w ≤ n)
    (hafter : ∀ store ∈ after, p + w ≤ store.1) :
    leAt w (storeAll n b (before ++ (p, x) :: after)) p = x % 256 ^ w := by
  have hsplit : storeAll n b (before ++ (p, x) :: after) =
      storeAll n (writeBytes (storeAll n b before) p (LittleEndian.encode n x)) after :=
    List.foldl_append
  have hlater : ∀ b', leAt w (storeAll n b' after) p = leAt w b' p := by
    intro b'
    apply leAt_congr
    intro i hi
    apply storeAll_outside
    intro store hstore
    have hle := hafter store hstore
    omega
  rw [hsplit, hlater, leAt_writeBytes hw]

end Store

end QoSMos
