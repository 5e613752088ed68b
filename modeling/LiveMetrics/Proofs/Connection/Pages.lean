import LiveMetrics.Proofs.Connection.Writing

/-!
# What has been written to the connections

`World.page` is what has been written to a connection so far. A turn adds to it what the turn has
written to that connection (`World.page_turn`), and of the other steps only a close handshake writes
anything.
-/

set_option autoImplicit false

namespace LiveMetrics

/-! ## Writings by connection -/

/-- The frames among writings that go to a connection. -/
def addressed (link : Nat) (said : List (Nat × Frame)) : List Frame :=
  (said.filter fun p => p.1 = link).map Prod.snd

theorem addressed_append (link : Nat) (first rest : List (Nat × Frame)) :
    addressed link (first ++ rest) = addressed link first ++ addressed link rest := by
  unfold addressed
  rw [List.filter_append, List.map_append]

/-- Nothing goes to a connection that is not among those written to. -/
theorem addressed_of_ne {link : Nat} {said : List (Nat × Frame)} (h : ∀ p ∈ said, p.1 ≠ link) :
    addressed link said = [] := by
  unfold addressed
  rw [List.filter_eq_nil_iff.mpr fun p hp => by simpa using h p hp]
  rfl

theorem addressed_of_link {to? : Option Nat} {said : List (Nat × Frame)}
    (h : ∀ p ∈ said, to? = some p.1) (link : Nat) :
    addressed link said = if to? = some link then said.map Prod.snd else [] := by
  split <;> rename_i hl
  · unfold addressed
    have ha : said.filter (fun p => p.1 = link) = said := by
      refine List.filter_eq_self.mpr fun p hp => ?_
      have he := (h p hp).symm.trans hl
      simpa using he
    rw [ha]
  · exact addressed_of_ne fun p hp he => hl (he ▸ h p hp)

namespace World

variable {κ σ : Type}

/-- What has been written to a connection. -/
def page (w : World κ σ) (link : Nat) : Option (List Frame) := (w.links[link]?).map Link.written

section Projections

variable (w : World κ σ)

theorem page_onLink (link : Nat) (f : Link → Link) (n : Nat) : (w.onLink link f).page n =
    (w.links[n]?).map fun l => (if link = n then f l else l).written := by
  unfold page onLink
  rw [List.getElem?_modify, Option.map_eq_map, Option.map_map]
  rfl

/-- A change of a connection that writes nothing. -/
theorem page_onLink_of_same {f : Link → Link} (same : ∀ l, (f l).written = l.written)
    (link : Nat) : (w.onLink link f).page = w.page := by
  funext n
  rw [page_onLink]
  unfold page
  congr 1
  funext l
  split
  · exact same l
  · rfl

@[simp] theorem page_post (sender : Option Nat) (message : Message κ) :
    (w.post sender message).page = w.page := by
  unfold page
  rw [links_post]

theorem page_joined (n : Nat) :
    w.joined.page n = if n = w.links.length then some [] else w.page n := by
  unfold page joined
  by_cases h : n = w.links.length
  · subst h
    simp
  · rw [if_neg h]
    by_cases hn : n < w.links.length
    · rw [List.getElem?_append_left hn]
    · rw [List.getElem?_eq_none (by simp; omega), List.getElem?_eq_none (by omega)]

theorem page_apply (e : Effect) (n : Nat) : (w.apply e).page n =
    (w.page n).map fun page => page ++ addressed n e.wrote?.toList := by
  cases e with
  | wrote link frame =>
    show (w.onLink link _).page n = _
    rw [page_onLink]
    unfold page
    rw [Option.map_map]
    congr 1
    funext l
    by_cases h : link = n
    · subst h
      simp [Effect.wrote?, addressed]
    · simp [Effect.wrote?, addressed, h]
  | _ =>
    show w.page n = _
    cases w.page n <;> simp [Effect.wrote?, addressed]

theorem page_foldl_apply (effects : List Effect) (n : Nat) :
    (effects.foldl apply w).page n = (w.page n).map fun page =>
      page ++ addressed n (effects.filterMap Effect.wrote?) := by
  induction effects generalizing w with
  | nil => simp [addressed]
  | cons e rest ih =>
    rw [List.foldl_cons, ih, page_apply, Option.map_map]
    congr 1
    funext page
    rw [filterMap_cons_toList, addressed_append, ← List.append_assoc]
    rfl

variable [Callback κ σ] (letter : Letter κ) (rest : List (Letter κ))
  (outcomes : Nat → Nat → WriteOutcome)

theorem page_turn (n : Nat) : (w.turn letter rest outcomes).page n = (w.page n).map fun page =>
    page ++ addressed n ((w.handling letter outcomes).effects.filterMap Effect.wrote?) := by
  have hc : (w.turn letter rest outcomes).page n = ((w.handling letter outcomes).effects.foldl apply
      { w with
        manager := (w.handling letter outcomes).manager
        shared := (w.handling letter outcomes).shared
        mailbox := rest
        history := w.history ++ [w.handled letter outcomes] }).page n := by
    unfold page
    rw [turn_eq, links_close]
  rw [hc, page_foldl_apply]
  rfl

end Projections

end World

end LiveMetrics
