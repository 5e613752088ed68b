import LiveMetrics.Subscription.Dispatch
import LiveMetrics.Wire.Message

/-!
# Frames that are sent and read

A frame is sent as a message, and the reader makes a frame of the message again (`Frame.carried`).
Messages hold text where frames may hold any bytes, so not every frame comes back.

1. A frame is proper if the bytes of its text, or of its close reason, are UTF-8. A proper frame comes
   back as it was (`Frame.carried_of_proper`).
2. Of the others, a text comes back as binary with the same bytes, and a close keeps its code and
   loses its reason (`Frame.carried_cases`).
3. What comes back is proper (`Frame.proper_carried`), so a second time changes nothing; and the bytes
   of data, pings and pongs are kept in each case (`Frame.content_carried`), so that dispatching data
   leads to the same.

The close codes of messages are taken as a parameter. All that is asked of them is that a number comes
back from the code that was made of it.
-/

set_option autoImplicit false

namespace LiveMetrics

namespace Frame

variable {κ : Type} {codes : CloseCodes κ}

/-- What a reader is given for a frame that was sent. -/
def carried (codes : CloseCodes κ) (f : Frame) : Frame := (WireMessage.ofFrame codes f).toFrame codes

/-- Where a frame is to hold text, it does. -/
def Proper : Frame → Prop
  | .text payload => payload.IsValidUTF8
  | .close (some why) => why.reason.IsValidUTF8
  | .binary _ | .ping _ | .pong _ | .close none => True

/-- The bytes of a frame that is no close. -/
def content? : Frame → Option ByteArray
  | .text bytes | .binary bytes | .ping bytes | .pong bytes => some bytes
  | .close _ => none

/-! ## One frame -/

theorem carried_text {payload : ByteArray} (valid : payload.IsValidUTF8) :
    carried codes (.text payload) = .text payload := by
  have read : String.fromUTF8? payload = some (String.fromUTF8 payload valid) := dif_pos valid
  unfold carried WireMessage.ofFrame
  dsimp only
  rw [read]
  rfl

theorem carried_text_of_invalid {payload : ByteArray} (invalid : ¬ payload.IsValidUTF8) :
    carried codes (.text payload) = .binary payload := by
  have read : String.fromUTF8? payload = none := dif_neg invalid
  unfold carried WireMessage.ofFrame
  dsimp only
  rw [read]
  rfl

section Numbers

variable (back : ∀ code, codes.number (codes.ofNumber code) = code)

include back

/-- A reason that is text is kept, any other is left out; the code stays. -/
theorem carried_close (why : CloseReason) :
    carried codes (.close (some why)) = .close (some
      ⟨why.code, ((String.fromUTF8? why.reason).getD "").toUTF8⟩) := by
  show Frame.close (some ⟨codes.number (codes.ofNumber why.code), _⟩) = _
  rw [back]

/-- **A proper frame comes back as it was.** -/
theorem carried_of_proper {f : Frame} (h : f.Proper) : f.carried codes = f := by
  cases f with
  | text payload => exact carried_text h
  | binary payload => rfl
  | ping payload => rfl
  | pong payload => rfl
  | close why =>
    cases why with
    | none => rfl
    | some why =>
      have read : String.fromUTF8? why.reason = some (String.fromUTF8 why.reason h) := dif_pos h
      rw [carried_close back, read, Option.getD_some]
      rfl

theorem carried_cases (f : Frame) :
    f.Proper ∧ f.carried codes = f ∨
      (∃ payload, f = .text payload ∧ ¬ payload.IsValidUTF8 ∧
        f.carried codes = .binary payload) ∨
      ∃ why, f = .close (some why) ∧ ¬ why.reason.IsValidUTF8 ∧
        f.carried codes = .close (some ⟨why.code, .empty⟩) := by
  by_cases proper : f.Proper
  · exact .inl ⟨proper, carried_of_proper back proper⟩
  · cases f with
    | text payload => exact .inr (.inl ⟨payload, rfl, proper, carried_text_of_invalid proper⟩)
    | binary payload => exact absurd trivial proper
    | ping payload => exact absurd trivial proper
    | pong payload => exact absurd trivial proper
    | close why =>
      cases why with
      | none => exact absurd trivial proper
      | some why =>
        have read : String.fromUTF8? why.reason = none := dif_neg proper
        refine .inr (.inr ⟨why, rfl, proper, ?_⟩)
        rw [carried_close back, read, Option.getD_none]
        rfl

theorem proper_carried (f : Frame) : (f.carried codes).Proper := by
  rcases carried_cases back f with ⟨proper, same⟩ | ⟨payload, -, -, binary⟩ | ⟨why, -, -, cut⟩
  · rw [same]
    exact proper
  · rw [binary]
    trivial
  · rw [cut]
    exact ByteArray.isValidUTF8_empty

theorem content_carried (f : Frame) : (f.carried codes).content? = f.content? := by
  rcases carried_cases back f with ⟨-, same⟩ | ⟨payload, rfl, -, binary⟩ | ⟨why, rfl, -, cut⟩
  · rw [same]
  · rw [binary]
    rfl
  · rw [cut]
    rfl

theorem payload_carried (f : Frame) : (f.carried codes).payload? = f.payload? := by
  rcases carried_cases back f with ⟨-, same⟩ | ⟨payload, rfl, -, binary⟩ | ⟨why, rfl, -, cut⟩
  · rw [same]
  · rw [binary]
    rfl
  · rw [cut]
    rfl

end Numbers

/-- **Sending and reading a frame** leaves it as it is exactly if it is proper. Else a text becomes
binary with the same bytes, and a close keeps its code with an empty reason. A second time changes
nothing, the bytes of data, pings and pongs are never altered, and the payload of data is dispatched to
the same outcome and the same calls. -/
theorem carried_normalizes (codes : CloseCodes κ)
    (back : ∀ code, codes.number (codes.ofNumber code) = code) (f : Frame) :
    (f.carried codes = f ↔ f.Proper) ∧
    (∀ payload, f = .text payload → ¬ payload.IsValidUTF8 → f.carried codes = .binary payload) ∧
    (∀ why, f = .close (some why) → ¬ why.reason.IsValidUTF8 →
      f.carried codes = .close (some ⟨why.code, .empty⟩)) ∧
    (f.carried codes).carried codes = f.carried codes ∧
    (f.carried codes).content? = f.content? ∧
    ∀ {χ σ : Type} [Callback χ σ] (r : Registry χ) (shared : σ) (limit : Nat) (receivedAt : Int),
      ((f.carried codes).payload?.map fun raw => r.dispatch limit raw receivedAt shared) =
        f.payload?.map fun raw => r.dispatch limit raw receivedAt shared := by
  refine ⟨⟨fun same => ?_, carried_of_proper back⟩, ?_, ?_,
    carried_of_proper back (proper_carried back f), content_carried back f, ?_⟩
  · rw [← same]
    exact proper_carried back f
  · rintro payload rfl invalid
    exact carried_text_of_invalid invalid
  · rintro why rfl invalid
    rcases carried_cases back (.close (some why)) with ⟨valid, -⟩ | ⟨_, other, -⟩ | ⟨_, same, -, cut⟩
    · exact absurd valid invalid
    · cases other
    · cases same
      exact cut
  · intro χ σ _ r shared limit receivedAt
    rw [payload_carried back]

/-- Close codes that have a name for the ordinary end and are their numbers otherwise. -/
def namedCodes : CloseCodes (Option UInt16) where
  ofNumber n := if n = 1000 then none else some n
  number code := code.getD 1000

theorem number_namedCodes (code : UInt16) :
    namedCodes.number (namedCodes.ofNumber code) = code := by
  unfold namedCodes
  dsimp only
  split
  · rename_i ordinary
    rw [ordinary]
    rfl
  · rfl

/-- The case of a close whose reason is no text. -/
theorem carried_normalizes_close :
    ((∀ code, namedCodes.number (namedCodes.ofNumber code) = code) ∧
        ¬ (⟨#[0xED, 0xA0, 0x80]⟩ : ByteArray).IsValidUTF8) ∧
      (Frame.close (some ⟨1000, ⟨#[0xED, 0xA0, 0x80]⟩⟩)).carried namedCodes =
        .close (some ⟨1000, .empty⟩) := by
  have invalid : ¬ (⟨#[0xED, 0xA0, 0x80]⟩ : ByteArray).IsValidUTF8 := by decide
  exact ⟨⟨number_namedCodes, invalid⟩,
    (carried_normalizes namedCodes number_namedCodes (.close (some ⟨1000, ⟨#[0xED, 0xA0, 0x80]⟩⟩))).2.2.1
      _ rfl invalid⟩

end Frame

end LiveMetrics
