import LiveMetrics.Health
import LiveMetrics.Proofs.Window

/-!
# The error log

The log keeps the last hundred errors, and of the text of each the longest start that takes at most
1024 bytes and splits no character.

1. A start of a text ends at a boundary (`Text.Boundary`), and `Text.clip` takes the characters up to
   the last boundary within the limit (`Text.clipped_clip`). Going back from the limit byte by byte
   finds the same boundary (`Text.Clipped.found`), after three bytes at the latest.
2. Of all that happens to the health of a connection (`Health.Op`), only errors and decode failures
   come into the log, each at its end (`Health.recentErrors_ofOps`).

Together: `Health.logged`.
-/

set_option autoImplicit false

namespace LiveMetrics

namespace Text

/-! ## Starts of a text -/

/-- Whether so many bytes of a text end between two of its characters, or at one of its ends. -/
def Boundary (s : String) (k : Nat) : Prop := String.Pos.Raw.IsValid s ⟨k⟩

theorem boundary_iff {s : String} {k : Nat} :
    Boundary s k ↔ ∃ start rest : String, s = start ++ rest ∧ k = start.utf8ByteSize := by
  unfold Boundary
  rw [String.Pos.Raw.isValid_iff_exists_append]
  simp only [String.Pos.Raw.ext_iff, String.byteIdx_rawEndPos]

theorem begins_of_append {s start rest : String} (whole : s = start ++ rest) :
    start.toByteArray = s.toByteArray.extract 0 start.utf8ByteSize := by
  rw [whole, String.toByteArray_append, ← String.size_toByteArray,
    ByteArray.extract_append_eq_left rfl]

/-- The last boundary up to a number of bytes, as it is found by going back one byte after the
other. -/
def lastBoundary (s : String) : Nat → Nat
  | 0 => 0
  | k + 1 => if String.Pos.Raw.isValid s ⟨k + 1⟩ then k + 1 else lastBoundary s k

/-- What is kept of a text of which at most `limit` bytes are wanted. -/
structure Clipped (limit : Nat) (s start : String) : Prop where
  begins : start.toByteArray = s.toByteArray.extract 0 start.utf8ByteSize
  boundary : Boundary s start.utf8ByteSize
  fits : start.utf8ByteSize ≤ limit
  longest : ∀ k ≤ limit, Boundary s k → k ≤ start.utf8ByteSize
  whole : s.utf8ByteSize ≤ limit → start = s
  found : limit ≤ s.utf8ByteSize → start.utf8ByteSize = lastBoundary s limit
  near : limit ≤ s.utf8ByteSize → limit < start.utf8ByteSize + 4

theorem utf8ByteSize_ofList_cons (c : Char) (rest : List Char) :
    (String.ofList (c :: rest)).utf8ByteSize = c.utf8Size + (String.ofList rest).utf8ByteSize := by
  rw [String.ofList_cons, String.utf8ByteSize_append, String.utf8ByteSize_singleton]

/-! ## Characters that fit -/

theorem clipChars_append (limit : Nat) (chars : List Char) :
    ∃ rest, clipChars limit chars ++ rest = chars := by
  induction chars generalizing limit with
  | nil => exact ⟨[], rfl⟩
  | cons c rest ih =>
    unfold clipChars
    split
    · obtain ⟨left, he⟩ := ih (limit - c.utf8Size)
      exact ⟨left, congrArg (c :: ·) he⟩
    · exact ⟨c :: rest, rfl⟩

theorem size_clipChars_le (limit : Nat) (chars : List Char) :
    (String.ofList (clipChars limit chars)).utf8ByteSize ≤ limit := by
  induction chars generalizing limit with
  | nil => exact Nat.zero_le _
  | cons c rest ih =>
    unfold clipChars
    split
    · have fits := ih (limit - c.utf8Size)
      rw [utf8ByteSize_ofList_cons]
      omega
    · exact Nat.zero_le _

/-- No longer start fits. -/
theorem le_size_clipChars {limit : Nat} {start rest : List Char}
    (fits : (String.ofList start).utf8ByteSize ≤ limit) :
    (String.ofList start).utf8ByteSize ≤
      (String.ofList (clipChars limit (start ++ rest))).utf8ByteSize := by
  induction start generalizing limit with
  | nil => exact Nat.zero_le _
  | cons c start ih =>
    rw [utf8ByteSize_ofList_cons] at fits
    have left : (String.ofList start).utf8ByteSize ≤ limit - c.utf8Size := by omega
    have more := ih left
    rw [List.cons_append, clipChars, if_pos (by omega), utf8ByteSize_ofList_cons,
      utf8ByteSize_ofList_cons]
    omega

/-- What does not fit any more begins with a character that takes up to four bytes. -/
theorem lt_size_clipChars {limit : Nat} {chars : List Char}
    (long : limit ≤ (String.ofList chars).utf8ByteSize) :
    limit < (String.ofList (clipChars limit chars)).utf8ByteSize + 4 := by
  induction chars generalizing limit with
  | nil =>
    have none_ : limit ≤ 0 := long
    omega
  | cons c rest ih =>
    rw [utf8ByteSize_ofList_cons] at long
    have most := c.utf8Size_le_four
    unfold clipChars
    split
    · have left : limit - c.utf8Size ≤ (String.ofList rest).utf8ByteSize := by omega
      have close := ih left
      rw [utf8ByteSize_ofList_cons]
      omega
    · omega

/-! ## The text that is kept -/

/-- Going back finds a boundary behind which there is none up to the limit. -/
theorem lastBoundary_eq {s : String} {limit last : Nat} (boundary : Boundary s last)
    (fits : last ≤ limit) (longest : ∀ k ≤ limit, Boundary s k → k ≤ last) :
    lastBoundary s limit = last := by
  induction limit with
  | zero => exact (Nat.le_zero.mp fits).symm
  | succ k ih =>
    unfold lastBoundary
    split <;> rename_i here
    · exact Nat.le_antisymm (longest _ (Nat.le_refl _) (String.Pos.Raw.isValid_eq_true_iff.mp here))
        fits
    · have before : last ≠ k + 1 := by
        rintro rfl
        exact here (String.Pos.Raw.isValid_eq_true_iff.mpr boundary)
      exact ih (by omega) fun j hj => longest j (by omega)

theorem clipped_self {limit : Nat} {s : String} (short : s.utf8ByteSize ≤ limit) :
    Clipped limit s s := by
  have boundary : Boundary s s.utf8ByteSize := String.Pos.Raw.isValid_rawEndPos
  have longest : ∀ k ≤ limit, Boundary s k → k ≤ s.utf8ByteSize := fun _ _ hk => hk.le_utf8ByteSize
  exact ⟨begins_of_append (String.append_empty (s := s)).symm, boundary, short, longest, fun _ => rfl,
    fun _ => (lastBoundary_eq boundary short longest).symm, fun long => by omega⟩

/-- **What is kept of a text** is its longest start that fits and splits no character. -/
theorem clipped_clip (limit : Nat) (s : String) : Clipped limit s (clip limit s) := by
  unfold clip
  split <;> rename_i short
  · exact clipped_self short
  obtain ⟨rest, he⟩ := clipChars_append limit s.toList
  have whole : s = String.ofList (clipChars limit s.toList) ++ String.ofList rest := by
    rw [← String.ofList_append, he, String.ofList_toList]
  have fits := size_clipChars_le limit s.toList
  have boundary : Boundary s (String.ofList (clipChars limit s.toList)).utf8ByteSize :=
    boundary_iff.mpr ⟨_, _, whole, rfl⟩
  have longest : ∀ k ≤ limit, Boundary s k →
      k ≤ (String.ofList (clipChars limit s.toList)).utf8ByteSize := by
    intro k hk there
    obtain ⟨start, left, hs, rfl⟩ := boundary_iff.mp there
    have chars : s.toList = start.toList ++ left.toList := by rw [hs, String.toList_append]
    rw [← String.ofList_toList (s := start)] at hk ⊢
    rw [chars]
    exact le_size_clipChars hk
  exact ⟨begins_of_append whole, boundary, fits, longest, fun few => absurd few short,
    fun _ => (lastBoundary_eq boundary fits longest).symm,
    fun long => lt_size_clipChars (by rwa [String.ofList_toList])⟩

end Text

namespace Health

/-! ## What happens to the health of a connection -/

/-- What is noted of a connection. -/
inductive Op where
  | connected (now : Nat)
  | disconnected
  | frame (now : Nat)
  | delivery (failed : Nat)
  | decodeFailure (message : String)
  | unrouted
  | error (kind message : String)
  | roundTrip (time : Span)
  | reconnect

/-- The error that is reported, with its whole text. -/
def Op.report? : Op → Option ErrorRecord
  | .decodeFailure message => some ⟨"decode", message⟩
  | .error kind message => some ⟨kind, message⟩
  | .connected _ | .disconnected | .frame _ | .delivery _ | .unrouted | .roundTrip _
  | .reconnect => none

def apply (h : Health) : Op → Health
  | .connected now => h.connected now
  | .disconnected => h.disconnected
  | .frame now => h.frame now
  | .delivery failed => h.delivery failed
  | .decodeFailure message => h.decodeFailure message
  | .unrouted => h.unrouted
  | .error kind message => h.error kind message
  | .roundTrip time => h.roundTrip time
  | .reconnect => h.reconnect

/-- What becomes of a health by what happens in order. -/
def ofOps (ops : List Op) : Health := ops.foldl apply new

/-- The entry of the log for an error that is reported. -/
def entry (report : ErrorRecord) : ErrorRecord :=
  ⟨report.kind, Text.clip maxErrorBytes report.message⟩

/-- An error comes to the end of the log; nothing else touches it. -/
theorem recentErrors_apply (h : Health) (op : Op) :
    (h.apply op).recentErrors = h.recentErrors.backfill (op.report?.toList.map entry) := by
  cases op <;> rfl

theorem recentErrors_foldl (h : Health) (ops : List Op) : (ops.foldl apply h).recentErrors =
    h.recentErrors.backfill ((ops.filterMap Op.report?).map entry) := by
  induction ops generalizing h with
  | nil => rfl
  | cons op rest ih =>
    rw [List.foldl_cons, ih, recentErrors_apply, ← Window.backfill_append, ← List.map_append]
    cases he : op.report? <;> simp [he]

/-- **The log holds the last errors**, oldest first. -/
theorem recentErrors_ofOps (ops : List Op) : (ofOps ops).recentErrors.items =
    (((ops.filterMap Op.report?).rtake maxRecentErrors).map entry) := by
  unfold ofOps
  rw [recentErrors_foldl, Window.items_backfill]
  unfold List.rtake
  rw [List.map_drop]
  simp [new, Window.empty]

/-- **The log tells the last hundred errors**, oldest first, whatever else has happened: each with its
kind, and with the longest start of its text that takes at most 1024 bytes and splits no character. -/
theorem logged (ops : List Op) (now : Nat) (state : ConnectionState) (topics subscriptions : Nat) :
    ((ofOps ops).stats now state topics subscriptions).recentErrors.length =
      min 100 (ops.filterMap Op.report?).length ∧
    List.Forall₂ (fun report kept => kept.kind = report.kind ∧
        Text.Clipped 1024 report.message kept.message)
      ((ops.filterMap Op.report?).rtake 100)
      ((ofOps ops).stats now state topics subscriptions).recentErrors := by
  have told : ((ofOps ops).stats now state topics subscriptions).recentErrors =
      ((ops.filterMap Op.report?).rtake 100).map entry := recentErrors_ofOps ops
  rw [told]
  refine ⟨?_, ?_⟩
  · unfold List.rtake
    rw [List.length_map, List.length_drop]
    omega
  · rw [List.forall₂_map_right_iff, List.forall₂_same]
    exact fun report _ => ⟨rfl, Text.clipped_clip 1024 report.message⟩

end Health

end LiveMetrics
