import GreenThreads.Relay
import GreenThreads.Proofs.Total
import Mathlib.Logic.Relation

/-!
# Batons that contexts hand over

A context that switches opens the gate of another one and then waits behind its own, and others may
pass, switch and come back before it gets there. Each native context brings a baton of its own.
Whoever switches has a baton, and it switches to a context that waits or is about to, that was not
discarded, and for which no other baton is on its way; only a context that does not run and for
which no baton is on its way is discarded.
-/

namespace GreenThreads

/-- How far a context is with a switch. -/
inductive Stride where
  /-- It runs its own code, with a baton. -/
  | running
  /-- It still has the baton and is about to open the gate of `target`. -/
  | handing (target : Nat) (terminal : Bool)
  /-- It is about to look at its own gate. -/
  | passing
  /-- It found its gate closed and sleeps; it may have been notified. -/
  | asleep (notified : Bool)
  /-- It has handed its baton over for good, or has learned that it was discarded. -/
  | ended
deriving DecidableEq

namespace Stride

/-- It has a baton. -/
def bears : Stride → Bool
  | running | handing _ _ => true
  | passing | asleep _ | ended => false

/-- It is suspended, or about to be. -/
def waits : Stride → Bool
  | passing | asleep _ => true
  | running | handing _ _ | ended => false

/-- A notification reaches a context that sleeps. -/
def notify : Stride → Stride
  | asleep _ => asleep true
  | s => s

@[simp] theorem bears_notify (s : Stride) : s.notify.bears = s.bears := by
  cases s <;> rfl

@[simp] theorem waits_notify (s : Stride) : s.notify.waits = s.waits := by
  cases s <;> rfl

theorem notify_ne_asleep (s : Stride) : s.notify ≠ .asleep false := by
  cases s <;> exact nofun

@[simp] theorem notify_eq_handing {s : Stride} {t : Nat} {e : Bool} :
    s.notify = .handing t e ↔ s = .handing t e := by
  cases s <;> simp [notify]

theorem bears_eq_false {s : Stride} (h : s.waits = true) : s.bears = false := by
  cases s with
  | passing | asleep => rfl
  | _ => cases h

end Stride

/-- A context with its gate. -/
structure Bearer where
  /-- It is the context of a thread that was there before, and has a baton of its own. -/
  native : Bool
  gate : Gate := .closed
  stride : Stride
  /-- Its own code has begun. -/
  started : Bool
  /-- What it has learned at its gate, oldest first. -/
  learned : List Passage := []
deriving DecidableEq

namespace Bearer

/-- The batons that it has or that wait at its gate. -/
def batons (x : Bearer) : Nat := x.stride.bears.toNat + (x.gate = .opened : Bool).toNat

/-- Its gate is opened. -/
def grant (x : Bearer) : Bearer := { x with gate := x.gate.grant, stride := x.stride.notify }

/-- It is discarded. -/
def discard (x : Bearer) : Bearer := { x with gate := x.gate.discard, stride := x.stride.notify }

/-- It has handed its baton over. -/
def part (x : Bearer) (terminal : Bool) : Bearer :=
  { x with stride := if terminal then .ended else .passing }

@[simp] theorem bears_part (x : Bearer) (terminal : Bool) :
    (x.part terminal).stride.bears = false := by
  cases terminal <;> rfl

theorem batons_part {x : Bearer} (h : x.stride.bears = true) (terminal : Bool) :
    (x.part terminal).batons + 1 = x.batons := by
  have hgate : (x.part terminal).gate = x.gate := rfl
  rw [batons, batons, bears_part, h, hgate, Bool.toNat_false, Bool.toNat_true]
  omega

/-- It goes by what it learns at its gate. -/
def enter (x : Bearer) (gate : Gate) : Passage → Bearer
  | .proceed =>
      { x with gate, stride := .running, started := true, learned := x.learned ++ [.proceed] }
  | .discarded => { x with gate, stride := .ended, learned := x.learned ++ [.discarded] }

/-- It is suspended or about to be, and its gate is closed. -/
def Ready (x : Bearer) : Prop := x.stride.waits = true ∧ x.gate = .closed

/-- What its gate says about it. -/
structure Fits (x : Bearer) : Prop where
  started : x.stride.bears = true → x.started = true
  opened : x.gate = .opened → x.stride.waits = true ∧ x.stride ≠ .asleep false
  discarded : x.gate = .discarded → x.stride.bears = false ∧ x.stride ≠ .asleep false

theorem Ready.bears_eq_false {x : Bearer} (h : x.Ready) : x.stride.bears = false :=
  Stride.bears_eq_false h.1

theorem Fits.gate_eq_closed {x : Bearer} (h : x.Fits) (hb : x.stride.bears = true) :
    x.gate = .closed := by
  cases hg : x.gate with
  | closed => rfl
  | opened => exact absurd hb (Bool.eq_false_iff.mp (Stride.bears_eq_false (h.opened hg).1))
  | discarded => exact absurd hb (Bool.eq_false_iff.mp (h.discarded hg).1)

theorem fits_of_closed {x : Bearer} (hg : x.gate = .closed)
    (hs : x.stride.bears = true → x.started = true) : x.Fits where
  started := hs
  opened := fun ho => by rw [hg] at ho; cases ho
  discarded := fun hd => by rw [hg] at hd; cases hd

end Bearer

/-- Contexts with their gates. -/
structure Rally where
  bearers : Array Bearer := #[]

namespace Rally

/-- Changes one context. -/
def modify (v : Rally) (i : Nat) (f : Bearer → Bearer) : Rally :=
  { bearers := v.bearers.modify i f }

/-- A baton is on its way to context `t`. -/
def Pending (v : Rally) (t : Nat) : Prop :=
  (∃ y : Bearer, v.bearers[t]? = some y ∧ y.gate = .opened) ∨
    ∃ (i : Nat) (x : Bearer) (e : Bool), v.bearers[i]? = some x ∧ x.stride = .handing t e

/-- How many contexts run their own code with a baton. -/
def running (v : Rally) : Nat := total (fun x => x.stride.bears.toNat) v.bearers

/-- How many gates are open. -/
def opened (v : Rally) : Nat := total (fun x => (x.gate = .opened : Bool).toNat) v.bearers

/-- How many native contexts there are. -/
def natives (v : Rally) : Nat := total (fun x => x.native.toNat) v.bearers

/-- What can happen at once. -/
inductive Step : Rally → Rally → Prop
  | adopt {v : Rally} : Step v {
      bearers := v.bearers.push { native := true, stride := .running, started := true } }
  | spawn {v : Rally} : Step v {
      bearers := v.bearers.push { native := false, stride := .passing, started := false } }
  | call {v : Rally} {i t : Nat} {x y : Bearer} (terminal : Bool) (giver : v.bearers[i]? = some x)
      (runs : x.stride = .running) (taker : v.bearers[t]? = some y) (waits : y.stride.waits = true)
      (kept : y.gate ≠ .discarded) (free : ¬v.Pending t) :
      Step v (v.modify i ({ · with stride := .handing t terminal }))
  | hand {v : Rally} {i t : Nat} {x : Bearer} {terminal : Bool} (giver : v.bearers[i]? = some x)
      (at_ : x.stride = .handing t terminal) :
      Step v ((v.modify i (·.part terminal)).modify t Bearer.grant)
  | look {v : Rally} {i : Nat} {x : Bearer} (on : v.bearers[i]? = some x)
      (at_ : x.stride = .passing) (shut : x.gate.pass? = none) :
      Step v (v.modify i ({ · with stride := .asleep false }))
  /-- It was notified, or it wakes for no reason. -/
  | stir {v : Rally} {i : Nat} {x : Bearer} {notified : Bool} (on : v.bearers[i]? = some x)
      (at_ : x.stride = .asleep notified) : Step v (v.modify i ({ · with stride := .passing }))
  | pass {v : Rally} {i : Nat} {x : Bearer} {g : Gate} {p : Passage} (on : v.bearers[i]? = some x)
      (at_ : x.stride = .passing) (through : x.gate.pass? = some (g, p)) :
      Step v (v.modify i (·.enter g p))
  | discard {v : Rally} {t : Nat} {y : Bearer} (on : v.bearers[t]? = some y)
      (idle : y.stride.bears = false) (free : ¬v.Pending t) : Step v (v.modify t Bearer.discard)

/-- What becomes of the contexts of a process that has none yet. -/
def Reached (v : Rally) : Prop := Relation.ReflTransGen Step {} v

variable {v v' : Rally} {x y z : Bearer} {f : Bearer → Bearer} {i j t n m : Nat} {e : Bool}

theorem getElem?_modify_self (hi : v.bearers[i]? = some x) :
    (v.modify i f).bearers[i]? = some (f x) := by
  rw [modify, Array.getElem?_modify, if_pos rfl, hi, Option.map_some]

theorem getElem?_modify_of_ne (hij : i ≠ j) : (v.modify i f).bearers[j]? = v.bearers[j]? := by
  rw [modify, Array.getElem?_modify, if_neg hij]

theorem getElem?_modify_cases (h : (v.modify i f).bearers[j]? = some z) :
    (j = i ∧ ∃ x, v.bearers[i]? = some x ∧ z = f x) ∨ (j ≠ i ∧ v.bearers[j]? = some z) := by
  by_cases hij : i = j
  · subst hij
    rw [modify, Array.getElem?_modify, if_pos rfl, Option.map_eq_some_iff] at h
    obtain ⟨x, hx, rfl⟩ := h
    exact .inl ⟨rfl, x, hx, rfl⟩
  · rw [getElem?_modify_of_ne hij] at h
    exact .inr ⟨Ne.symm hij, h⟩

/-! ## What holds between any two steps -/

/-- Context `t` waits at a closed gate. -/
def Awaits (v : Rally) (t : Nat) : Prop := ∃ y : Bearer, v.bearers[t]? = some y ∧ y.Ready

/-- Nobody is about to open the gate of context `t`. -/
def Unsought (v : Rally) (t : Nat) : Prop :=
  ∀ (i : Nat) (x : Bearer) (e : Bool), v.bearers[i]? = some x → x.stride ≠ .handing t e

/-- The batons are where they belong, but for `n` of them that nobody has at the moment. -/
structure Sound (n : Nat) (v : Rally) : Prop where
  count : total Bearer.batons v.bearers + n = v.natives
  fits : ∀ (i : Nat) (x : Bearer), v.bearers[i]? = some x → x.Fits
  /-- Whoever is about to get a baton waits for it. -/
  ready : ∀ (i : Nat) (x : Bearer) (t : Nat) (e : Bool), v.bearers[i]? = some x →
    x.stride = .handing t e → v.Awaits t
  /-- Nobody is about to get two batons. -/
  alone : ∀ (i j : Nat) (x y : Bearer) (t : Nat) (e e' : Bool), v.bearers[i]? = some x →
    v.bearers[j]? = some y → x.stride = .handing t e → y.stride = .handing t e' → i = j

namespace Sound

theorem start : Sound 0 {} where
  count := rfl
  fits := by simp
  ready := by simp
  alone := by simp

theorem change (h : Sound n v) (f : Bearer → Bearer) (hi : v.bearers[i]? = some x)
    (hbatons : (f x).batons + m = x.batons + n) (hnative : (f x).native = x.native)
    (hfits : (f x).Fits)
    (hhanding : ∀ t e, (f x).stride = .handing t e →
      x.stride = .handing t e ∨ t ≠ i ∧ v.Awaits t ∧ v.Unsought t)
    (hready : x.Ready → (f x).Ready ∨ v.Unsought i) :
    Sound m (v.modify i f) where
  count := by
    have hcount := h.count
    have htotal := total_modify (f := Bearer.batons) f hi
    have hnatives : total (fun x => x.native.toNat) (v.bearers.modify i f) = v.natives :=
      total_modify_of_eq f fun z hz => by
        rw [hi] at hz
        cases hz
        rw [hnative]
    simp only [modify, natives] at *
    omega
  fits := fun j z hz => by
    obtain ⟨rfl, x', hx', rfl⟩ | ⟨-, hz⟩ := getElem?_modify_cases hz
    · rw [hi] at hx'
      cases hx'
      exact hfits
    · exact h.fits j z hz
  ready := fun j z t e hz hs => by
    have hold : v.Awaits t ∧ (t = i → ¬v.Unsought i) ∨ t ≠ i ∧ v.Awaits t := by
      obtain ⟨rfl, x', hx', rfl⟩ | ⟨-, hz⟩ := getElem?_modify_cases hz
      · rw [hi] at hx'
        cases hx'
        rcases hhanding t e hs with hs | ⟨hne, hawaits, -⟩
        · exact .inl ⟨h.ready _ _ t e hi hs, fun ht hfree => hfree _ _ e hi (ht ▸ hs)⟩
        · exact .inr ⟨hne, hawaits⟩
      · exact .inl ⟨h.ready _ _ t e hz hs, fun ht hfree => hfree _ _ e hz (ht ▸ hs)⟩
    by_cases hti : t = i
    · subst hti
      obtain ⟨⟨y, hy, hyready⟩, hsought⟩ := hold.resolve_right fun hne => hne.1 rfl
      rw [hi] at hy
      cases hy
      exact ⟨_, getElem?_modify_self hi, (hready hyready).resolve_right (hsought rfl)⟩
    · obtain ⟨y, hy, hyready⟩ : v.Awaits t := hold.elim (·.1) (·.2)
      exact ⟨y, (getElem?_modify_of_ne (Ne.symm hti)).trans hy, hyready⟩
  alone := fun j k z w t e e' hz hw hs hs' => by
    have hcontra {l : Nat} {u : Bearer} {d d' : Bool} (hl : l ≠ i) (hu : v.bearers[l]? = some u)
        (hd : u.stride = .handing t d) (hx : (f x).stride = .handing t d') : False := by
      rcases hhanding t d' hx with hx | ⟨-, -, hfree⟩
      · exact hl (h.alone _ _ _ _ t _ _ hu hi hd hx)
      · exact hfree _ _ _ hu hd
    obtain ⟨rfl, x', hx', rfl⟩ | ⟨hj, hz'⟩ := getElem?_modify_cases hz
    · rw [hi] at hx'
      cases hx'
      obtain ⟨rfl, -, -, -⟩ | ⟨hk, hw'⟩ := getElem?_modify_cases hw
      · rfl
      · exact (hcontra hk hw' hs' hs).elim
    · obtain ⟨rfl, x', hx', rfl⟩ | ⟨hk, hw'⟩ := getElem?_modify_cases hw
      · rw [hi] at hx'
        cases hx'
        exact (hcontra hj hz' hs hs').elim
      · exact h.alone _ _ _ _ t _ _ hz' hw' hs hs'

theorem push (h : Sound n v) (hbatons : z.batons = z.native.toNat) (hfits : z.Fits)
    (hhanding : ∀ t e, z.stride ≠ .handing t e) : Sound n { bearers := v.bearers.push z } := by
  have hcases {j : Nat} {y : Bearer} (hj : (v.bearers.push z)[j]? = some y) :
      y = z ∨ v.bearers[j]? = some y := by
    rw [Array.getElem?_push] at hj
    split at hj
    · exact .inl (Option.some.inj hj).symm
    · exact .inr hj
  have hold {j : Nat} {y : Bearer} (hj : v.bearers[j]? = some y) :
      (v.bearers.push z)[j]? = some y := by
    obtain ⟨hlt, rfl⟩ := Array.getElem?_eq_some_iff.mp hj
    exact Array.getElem?_push_lt hlt
  exact
    { count := by
        have hcount := h.count
        simp only [total, natives, Array.toList_push, List.map_append, List.sum_append,
          List.map_cons, List.map_nil, List.sum_cons, List.sum_nil] at *
        omega
      fits := fun j y hj => (hcases hj).elim (fun hy => hy ▸ hfits) (h.fits j y)
      ready := fun j y t e hj hs => by
        rcases hcases hj with rfl | hj
        · exact absurd hs (hhanding t e)
        · obtain ⟨w, hw, hready⟩ := h.ready j y t e hj hs
          exact ⟨w, hold hw, hready⟩
      alone := fun j k y w t e e' hj hk hs hs' => by
        rcases hcases hj with rfl | hj
        · exact absurd hs (hhanding t e)
        · rcases hcases hk with rfl | hk
          · exact absurd hs' (hhanding t e')
          · exact h.alone _ _ _ _ t _ _ hj hk hs hs' }

theorem ne_of_awaits (hi : v.bearers[i]? = some x) (hb : x.stride.bears = true)
    (ht : v.Awaits t) : t ≠ i := by
  rintro rfl
  obtain ⟨y, hy, hready⟩ := ht
  cases hi.symm.trans hy
  rw [hready.bears_eq_false] at hb
  cases hb

/-- Whoever has a baton keeps it while it calls another context that waits. -/
theorem call (h : Sound 0 v) (giver : v.bearers[i]? = some x) (runs : x.stride = .running)
    (taker : v.bearers[t]? = some y) (waits : y.stride.waits = true) (kept : y.gate ≠ .discarded)
    (free : ¬v.Pending t) (terminal : Bool) :
    Sound 0 (v.modify i ({ · with stride := .handing t terminal })) := by
  have hfits := h.fits i x giver
  have hbears : x.stride.bears = true := by rw [runs]; rfl
  have hclosed : y.gate = .closed := by
    cases hg : y.gate with
    | closed => rfl
    | opened => exact absurd (.inl ⟨y, taker, hg⟩) free
    | discarded => exact absurd hg kept
  have hawaits : v.Awaits t := ⟨y, taker, waits, hclosed⟩
  refine h.change ({ · with stride := .handing t terminal }) giver ?_ rfl
    (Bearer.fits_of_closed (hfits.gate_eq_closed hbears) fun _ => hfits.started hbears) ?_
    (fun hx => ?_)
  · rw [Bearer.batons, Bearer.batons, runs]
    rfl
  · intro t' e he
    cases he
    exact .inr ⟨ne_of_awaits giver hbears hawaits, hawaits,
      fun j w e hw hs => free (.inr ⟨j, w, e, hw, hs⟩)⟩
  · rw [hx.bears_eq_false] at hbears
    cases hbears

/-- A baton leaves its context, and then it is at the gate of another one. -/
theorem hand (h : Sound 0 v) (giver : v.bearers[i]? = some x) (at_ : x.stride = .handing t e) :
    Sound 0 ((v.modify i (·.part e)).modify t Bearer.grant) := by
  have hfits := h.fits i x giver
  have hbears : x.stride.bears = true := by rw [at_]; rfl
  have hawaits := h.ready i x t e giver at_
  have hit := Ne.symm (ne_of_awaits giver hbears hawaits)
  obtain ⟨y, taker, hwaits, hclosed⟩ := hawaits
  have hidle := Stride.bears_eq_false hwaits
  have haloft : Sound 1 (v.modify i (·.part e)) := by
    refine h.change (·.part e) giver (Bearer.batons_part hbears e) rfl
      (Bearer.fits_of_closed (hfits.gate_eq_closed hbears) fun hb => ?_) ?_ (fun hx => ?_)
    · rw [Bearer.bears_part] at hb
      cases hb
    · intro t' e' he
      cases e <;> cases he
    · rw [hx.bears_eq_false] at hbears
      cases hbears
  have taker' : (v.modify i (·.part e)).bearers[t]? = some y :=
    (getElem?_modify_of_ne hit).trans taker
  have hunsought : (v.modify i (·.part e)).Unsought t := by
    intro j w e' hw hs
    obtain ⟨-, x', hx', rfl⟩ | ⟨hj, hw'⟩ := getElem?_modify_cases hw
    · cases e <;> cases hs
    · exact hj (h.alone j i w x t e' e hw' giver hs at_)
  refine haloft.change Bearer.grant taker' ?_ rfl ⟨fun hb => ?_, fun _ => ?_, fun hg => ?_⟩ ?_
    (fun _ => .inr hunsought)
  · simp [Bearer.batons, Bearer.grant, hclosed, Gate.grant, hidle]
  · rw [Bearer.grant, Stride.bears_notify, hidle] at hb
    cases hb
  · exact ⟨by rw [Bearer.grant, Stride.waits_notify]; exact hwaits, Stride.notify_ne_asleep _⟩
  · rw [Bearer.grant, hclosed] at hg
    cases hg
  · intro t' e' he
    exact .inl (Stride.notify_eq_handing.mp he)

/-- Whoever passes its gate takes the baton from there, or learns that it was discarded. -/
theorem pass (h : Sound 0 v) {g : Gate} {p : Passage} (on : v.bearers[i]? = some x)
    (at_ : x.stride = .passing) (through : x.gate.pass? = some (g, p)) :
    Sound 0 (v.modify i (·.enter g p)) := by
  cases hg : x.gate with
  | closed => rw [hg] at through; cases through
  | opened =>
      rw [hg] at through
      cases through
      refine h.change (·.enter .closed .proceed) on ?_ rfl ⟨fun _ => rfl, nofun, nofun⟩ nofun
        (fun hx => ?_)
      · simp [Bearer.batons, Bearer.enter, hg, at_, Stride.bears]
      · have hclosed := hx.2
        rw [hg] at hclosed
        cases hclosed
  | discarded =>
      rw [hg] at through
      cases through
      refine h.change (·.enter .discarded .discarded) on ?_ rfl
        ⟨nofun, nofun, fun _ => ⟨rfl, nofun⟩⟩ nofun (fun hx => ?_)
      · simp [Bearer.batons, Bearer.enter, hg, at_, Stride.bears]
      · have hclosed := hx.2
        rw [hg] at hclosed
        cases hclosed

theorem step (h : Sound 0 v) (hs : Step v v') : Sound 0 v' := by
  cases hs with
  | adopt => exact h.push rfl ⟨fun _ => rfl, nofun, nofun⟩ nofun
  | spawn => exact h.push rfl ⟨nofun, nofun, nofun⟩ nofun
  | call terminal giver runs taker waits kept free =>
      exact h.call giver runs taker waits kept free terminal
  | hand giver at_ => exact h.hand giver at_
  | @look i x on at_ shut =>
      have hclosed : x.gate = .closed := by
        cases hg : x.gate with
        | closed => rfl
        | opened | discarded => rw [hg] at shut; cases shut
      refine h.change ({ · with stride := .asleep false }) on ?_ rfl
        (Bearer.fits_of_closed hclosed nofun) nofun (fun _ => .inl ⟨rfl, hclosed⟩)
      rw [Bearer.batons, Bearer.batons, at_]
      rfl
  | @stir i x notified on at_ =>
      refine h.change ({ · with stride := .passing }) on ?_ rfl
        ⟨nofun, fun _ => ⟨rfl, nofun⟩, fun _ => ⟨rfl, nofun⟩⟩ nofun
        (fun hx => .inl ⟨rfl, hx.2⟩)
      rw [Bearer.batons, Bearer.batons, at_]
      rfl
  | pass on at_ through => exact h.pass on at_ through
  | @discard t y on idle free =>
      have hgate : y.gate ≠ .opened := fun hg => free (.inl ⟨y, on, hg⟩)
      refine h.change Bearer.discard on ?_ rfl
        ⟨fun hb => ?_, nofun, fun _ => ⟨?_, Stride.notify_ne_asleep _⟩⟩
        (fun t' e he => .inl (Stride.notify_eq_handing.mp he))
        (fun _ => .inr fun j w e hw hs => free (.inr ⟨j, w, e, hw, hs⟩))
      · simp [Bearer.batons, Bearer.discard, Gate.discard, idle, hgate]
      · rw [Bearer.discard, Stride.bears_notify, idle] at hb
        cases hb
      · rw [Bearer.discard, Stride.bears_notify]
        exact idle

end Sound

theorem Reached.sound (h : Reached v) : Sound 0 v := by
  induction h with
  | refl => exact .start
  | tail _ hs ih => exact ih.step hs

end Rally

/-! ## One context in a run -/

namespace Bearer

/-- What can become of a context at once. -/
inductive Turn (x : Bearer) : Bearer → Prop
  | stay : Turn x x
  | call (runs : x.stride = .running) (t : Nat) (e : Bool) :
      Turn x { x with stride := .handing t e }
  | hand {t : Nat} {e : Bool} (at_ : x.stride = .handing t e) : Turn x (x.part e)
  | grant (ready : x.Ready) : Turn x x.grant
  | look (at_ : x.stride = .passing) (shut : x.gate.pass? = none) :
      Turn x { x with stride := .asleep false }
  | stir {notified : Bool} (at_ : x.stride = .asleep notified) :
      Turn x { x with stride := .passing }
  | pass {g : Gate} {p : Passage} (at_ : x.stride = .passing)
      (through : x.gate.pass? = some (g, p)) : Turn x (x.enter g p)
  | discard (idle : x.stride.bears = false) (shut : x.gate ≠ .opened) : Turn x x.discard

variable {x y z : Bearer}

theorem Turn.learned (h : Turn x y) : ∃ since, y.learned = x.learned ++ since := by
  cases h with
  | @pass g p at_ through => cases p <;> exact ⟨_, rfl⟩
  | _ => exact ⟨[], (List.append_nil _).symm⟩

/-- An open gate stays open until the context goes through it with the baton. -/
theorem Turn.opened (h : Turn x y) (hg : x.gate = .opened) (hw : x.stride.waits = true) :
    y.gate = .opened ∧ y.stride.waits = true ∨ y.learned = x.learned ++ [.proceed] := by
  cases h with
  | stay => exact .inl ⟨hg, hw⟩
  | call runs => rw [runs] at hw; cases hw
  | hand at_ => rw [at_] at hw; cases hw
  | grant ready => rw [ready.2] at hg; cases hg
  | look at_ shut => rw [hg] at shut; cases shut
  | stir => exact .inl ⟨hg, rfl⟩
  | pass at_ through =>
      rw [hg] at through
      cases through
      exact .inr rfl
  | discard idle shut => exact absurd hg shut

theorem Turn.ended (h : Turn x y) (ho : x.stride = .ended) :
    y.stride = .ended ∧ y.learned = x.learned := by
  cases h with
  | stay => exact ⟨ho, rfl⟩
  | call runs => rw [runs] at ho; cases ho
  | hand at_ => rw [at_] at ho; cases ho
  | grant ready =>
      have hw := ready.1
      rw [ho] at hw
      cases hw
  | look at_ => rw [at_] at ho; cases ho
  | stir at_ => rw [at_] at ho; cases ho
  | pass at_ => rw [at_] at ho; cases ho
  | discard => exact ⟨by rw [Bearer.discard, ho]; rfl, rfl⟩

theorem Turn.discarded (h : Turn x y) (hg : x.gate = .discarded) (hb : x.stride.bears = false) :
    y.gate = .discarded ∧ y.stride.bears = false ∧ y.started = x.started ∧
      (y.learned = x.learned ∨ y.learned = x.learned ++ [.discarded]) := by
  cases h with
  | stay => exact ⟨hg, hb, rfl, .inl rfl⟩
  | call runs => rw [runs] at hb; cases hb
  | hand at_ => rw [at_] at hb; cases hb
  | grant ready => rw [ready.2] at hg; cases hg
  | look at_ shut => rw [hg] at shut; cases shut
  | stir => exact ⟨hg, rfl, rfl, .inl rfl⟩
  | pass at_ through =>
      rw [hg] at through
      cases through
      exact ⟨rfl, rfl, rfl, .inr rfl⟩
  | discard => exact ⟨rfl, by rw [Bearer.discard, Stride.bears_notify]; exact hb, rfl, .inl rfl⟩

/-- What can become of a context. -/
abbrev Turns : Bearer → Bearer → Prop := Relation.ReflTransGen Turn

theorem Turns.learned (h : Turns x y) : ∃ since, y.learned = x.learned ++ since := by
  induction h with
  | refl => exact ⟨[], (List.append_nil _).symm⟩
  | tail _ ht ih =>
      obtain ⟨since, hsince⟩ := ih
      obtain ⟨more, hmore⟩ := ht.learned
      exact ⟨since ++ more, by rw [hmore, hsince, List.append_assoc]⟩

theorem Turns.opened (h : Turns x y) (hg : x.gate = .opened) (hw : x.stride.waits = true) :
    y.gate = .opened ∧ y.stride.waits = true ∨
      ∃ since, y.learned = x.learned ++ since ∧ .proceed ∈ since := by
  induction h with
  | refl => exact .inl ⟨hg, hw⟩
  | @tail y z hs ht ih =>
      rcases ih with ⟨hg', hw'⟩ | ⟨since, hsince, hin⟩
      · refine (ht.opened hg' hw').imp_right fun hlearned => ?_
        obtain ⟨since, hsince⟩ := Turns.learned hs
        refine ⟨since ++ [.proceed], ?_, List.mem_concat_self⟩
        rw [hlearned, hsince, List.append_assoc]
      · obtain ⟨more, hmore⟩ := ht.learned
        refine .inr ⟨since ++ more, ?_, List.mem_append_left _ hin⟩
        rw [hmore, hsince, List.append_assoc]

theorem Turns.ended (h : Turns x y) (ho : x.stride = .ended) :
    y.stride = .ended ∧ y.learned = x.learned := by
  induction h with
  | refl => exact ⟨ho, rfl⟩
  | tail _ ht ih =>
      obtain ⟨ho', hlearned⟩ := ht.ended ih.1
      exact ⟨ho', hlearned.trans ih.2⟩

theorem Turns.discarded (h : Turns x y) (hg : x.gate = .discarded) (hb : x.stride.bears = false) :
    y.gate = .discarded ∧ y.stride.bears = false ∧ y.started = x.started ∧
      ∃ since, y.learned = x.learned ++ since ∧ ∀ p ∈ since, p = .discarded := by
  induction h with
  | refl => exact ⟨hg, hb, rfl, [], (List.append_nil _).symm, nofun⟩
  | tail _ ht ih =>
      obtain ⟨hg', hb', hstarted, since, hsince, hall⟩ := ih
      obtain ⟨hg'', hb'', hstarted', hlearned⟩ := ht.discarded hg' hb'
      refine ⟨hg'', hb'', hstarted'.trans hstarted, ?_⟩
      rcases hlearned with hlearned | hlearned
      · exact ⟨since, hlearned.trans hsince, hall⟩
      · refine ⟨since ++ [.discarded], by rw [hlearned, hsince, List.append_assoc], ?_⟩
        intro p hp
        exact (List.mem_append.mp hp).elim (hall p) List.mem_singleton.mp

end Bearer

namespace Rally

variable {v v' : Rally} {x y : Bearer} {f : Bearer → Bearer} {i j : Nat}

theorem exists_modify {z : Bearer} (on : v.bearers[j]? = some z) (ht : z.Turn (f z))
    (hi : v.bearers[i]? = some x) : ∃ y, x.Turn y ∧ (v.modify j f).bearers[i]? = some y := by
  by_cases hji : j = i
  · subst hji
    cases on.symm.trans hi
    exact ⟨f x, ht, getElem?_modify_self hi⟩
  · exact ⟨x, .stay, (getElem?_modify_of_ne hji).trans hi⟩

theorem exists_push {z : Bearer} (hi : v.bearers[i]? = some x) :
    ∃ y, x.Turn y ∧ (v.bearers.push z)[i]? = some y := by
  obtain ⟨hlt, rfl⟩ := Array.getElem?_eq_some_iff.mp hi
  exact ⟨_, .stay, Array.getElem?_push_lt hlt⟩

/-- What a step means to a context. -/
theorem Sound.turn (h : Sound 0 v) (hs : Step v v') (hi : v.bearers[i]? = some x) :
    ∃ y, x.Turn y ∧ v'.bearers[i]? = some y := by
  cases hs with
  | adopt => exact exists_push hi
  | spawn => exact exists_push hi
  | call terminal giver runs taker waits kept free =>
      exact exists_modify giver (.call runs _ terminal) hi
  | @hand j t w terminal giver at_ =>
      have htj := ne_of_awaits giver (by rw [at_]; rfl) (h.ready _ _ _ _ giver at_)
      obtain ⟨u, taker, hready⟩ := h.ready _ _ _ _ giver at_
      by_cases hj : j = i
      · subst hj
        cases giver.symm.trans hi
        refine ⟨_, .hand at_, ?_⟩
        rw [getElem?_modify_of_ne htj, getElem?_modify_self hi]
      · have taker' : (v.modify j (·.part terminal)).bearers[t]? = some u :=
          (getElem?_modify_of_ne htj.symm).trans taker
        exact exists_modify taker' (.grant hready) ((getElem?_modify_of_ne hj).trans hi)
  | look on at_ shut => exact exists_modify on (.look at_ shut) hi
  | stir on at_ => exact exists_modify on (.stir at_) hi
  | pass on at_ through => exact exists_modify on (.pass at_ through) hi
  | discard on idle free =>
      exact exists_modify on (.discard idle fun hg => free (.inl ⟨_, on, hg⟩)) hi

/-- What a run means to a context. -/
theorem Sound.turns (h : Sound 0 v) (hs : Relation.ReflTransGen Step v v')
    (hi : v.bearers[i]? = some x) : Sound 0 v' ∧ ∃ y, x.Turns y ∧ v'.bearers[i]? = some y := by
  induction hs with
  | refl => exact ⟨h, x, .refl, hi⟩
  | tail _ hs ih =>
      obtain ⟨hsound, y, hturns, hy⟩ := ih
      obtain ⟨z, hturn, hz⟩ := hsound.turn hs hy
      exact ⟨hsound.step hs, z, hturns.tail hturn, hz⟩

/-! ## Relays -/

section Relay

variable {N : Type} {r r' : Relay N} {a b : Runner N} {g : Runner N → Runner N} {t : Nat} {e : Bool}

/-- Where a runner of a relay is. -/
def stride : RunnerPhase → Stride
  | .unstarted | .waiting => .passing
  | .running => .running
  | .over => .ended

/-- The contexts are where the runners of a relay are. -/
def Shows (v : Rally) (r : Relay N) : Prop :=
  ∀ i : Nat, v.bearers[i]?.map (fun x => (x.gate, x.stride)) =
    r.runners[i]?.map fun a => (a.gate, stride a.phase)

theorem Shows.exists_bearer (h : Shows v r) (hi : r.runners[i]? = some a) :
    ∃ x : Bearer, v.bearers[i]? = some x ∧ x.gate = a.gate ∧ x.stride = stride a.phase := by
  have hshows := h i
  rw [hi, Option.map_some, Option.map_eq_some_iff] at hshows
  obtain ⟨x, hx, hsame⟩ := hshows
  exact ⟨x, hx, congrArg Prod.fst hsame, congrArg Prod.snd hsame⟩

theorem Shows.modify (h : Shows v r)
    (hsame : ∀ (x : Bearer) (a : Runner N), r.runners[i]? = some a → x.gate = a.gate →
      x.stride = stride a.phase → (f x).gate = (g a).gate ∧ (f x).stride = stride (g a).phase) :
    Shows (v.modify i f) (r.modify i g) := by
  intro j
  by_cases hij : i = j
  · subst hij
    rw [Relay.modify, List.getElem?_modify_eq, Rally.modify, Array.getElem?_modify, if_pos rfl,
      Option.map_eq_map]
    cases ha : r.runners[i]? with
    | none =>
        have hshows := h i
        rw [ha, Option.map_none, Option.map_eq_none_iff] at hshows
        rw [hshows]
        rfl
    | some a =>
        obtain ⟨x, hx, hgate, hstride⟩ := h.exists_bearer ha
        obtain ⟨hgate', hstride'⟩ := hsame x a ha hgate hstride
        simp only [hx, Option.map_some, hgate', hstride']
  · rw [Relay.modify, List.getElem?_modify_ne _ _ hij, getElem?_modify_of_ne hij]
    exact h j

/-- What a runner notes about itself does not matter. -/
theorem Shows.modify_right (h : Shows v r)
    (hsame : ∀ a, (g a).gate = a.gate ∧ (g a).phase = a.phase) : Shows v (r.modify i g) := by
  intro j
  rw [h j, Relay.modify, List.getElem?_modify, Option.map_eq_map, Option.map_map]
  congr 1
  funext a
  simp only [Function.comp]
  split
  · rw [(hsame a).1, (hsame a).2]
  · rfl

theorem Shows.grant (h : Shows v r) (t : Nat) :
    Shows (v.modify t Bearer.grant) (r.grant t) :=
  h.modify fun x a _ hgate hstride => by
    refine ⟨by rw [Bearer.grant, hgate], ?_⟩
    rw [Bearer.grant, hstride]
    cases a.phase <;> rfl

theorem enter?_eq_some {b : Runner N} {p : Passage} (h : a.enter? = some (b, p)) :
    stride a.phase = .passing ∧ ∃ g, a.gate.pass? = some (g, p) ∧ b.gate = g ∧
      stride b.phase = if p = .proceed then .running else .ended := by
  obtain ⟨script, gate, phase⟩ := a
  cases phase with
  | unstarted | waiting =>
      cases gate <;> cases h <;> exact ⟨rfl, _, rfl, rfl, rfl⟩
  | _ => cases h

theorem Shows.enter (h : Shows v r) (he : r.enter? i = some r') :
    ∃ v', Step v v' ∧ Shows v' r' := by
  unfold Relay.enter? at he
  cases ha : r.runners[i]? with
  | none => rw [ha] at he; cases he
  | some a =>
      rw [ha] at he
      obtain ⟨⟨b, p⟩, hp, rfl⟩ := Option.map_eq_some_iff.mp he
      obtain ⟨hwaits, g, hpass, hgate', hstride'⟩ := enter?_eq_some hp
      obtain ⟨x, hx, hgate, hstride⟩ := h.exists_bearer ha
      refine ⟨_, .pass hx (hstride.trans hwaits) (hgate ▸ hpass), ?_⟩
      have hshows : Shows (v.modify i (·.enter g p)) (r.modify i fun _ => b) :=
        h.modify fun y _ _ _ _ => by
          rw [hgate', hstride']
          cases p <;> exact ⟨rfl, rfl⟩
      intro j
      dsimp only
      split <;> exact hshows j

theorem Shows.move {m : Move N} {script : List (Move N)} (h : Shows v r)
    (hi : r.runners[i]? = some a) (runs : a.phase = .running) (hscript : a.script = m :: script)
    (hm : m = .pass t ∧ e = false ∨ (m = .finish t ∨ m = .fail t) ∧ e = true)
    (taker : v.bearers[t]? = some y) (waits : y.stride.waits = true) (kept : y.gate ≠ .discarded)
    (free : ¬v.Pending t) :
    ∃ v' r', r.move? i = some r' ∧ Relation.ReflTransGen Step v v' ∧ Shows v' r' := by
  obtain ⟨x, hx, hgate, hstride⟩ := h.exists_bearer hi
  have hcall := Step.call e hx (by rw [hstride, runs]; rfl) taker waits kept free
  have hhand := (Relation.ReflTransGen.single hcall).tail (.hand (getElem?_modify_self hx) rfl)
  have hsame : (v.modify i ({ · with stride := .handing t e })).modify i (·.part e) =
      v.modify i (·.part e) := by
    rw [Rally.modify, Rally.modify, modify_modify]
    rfl
  rw [hsame] at hhand
  have hscript' : Shows v (r.modify i ({ · with script })) := h.modify_right fun _ => ⟨rfl, rfl⟩
  have hover : Shows (v.modify i (·.part true)) ((r.modify i ({ · with script })).modify i
      Runner.stop) := hscript'.modify fun x a _ hgate _ => ⟨hgate, rfl⟩
  obtain ⟨rfl, rfl⟩ | ⟨rfl | rfl, rfl⟩ := hm
  · have hwaiting : Shows (v.modify i (·.part false)) ((r.modify i ({ · with script })).modify i
        ({ · with phase := .waiting })) := hscript'.modify fun x a _ hgate _ => ⟨hgate, rfl⟩
    exact ⟨_, _, by simp only [Relay.move?, hi, runs, ↓reduceIte, hscript], hhand,
      hwaiting.grant t⟩
  · have hrecord : Shows (v.modify i (·.part true)) (((r.modify i ({ · with script })).modify i
        Runner.stop).record i (.finished t)) := hover
    exact ⟨_, _, by simp only [Relay.move?, hi, runs, ↓reduceIte, hscript], hhand,
      hrecord.grant t⟩
  · exact ⟨_, _, by simp only [Relay.move?, hi, runs, ↓reduceIte, hscript], hhand, hover.grant t⟩

end Relay

/-! ## Batons are kept -/

/-- There are as many batons as native contexts: contexts run with them, or they wait at open gates.
A context behind an open gate does not sleep without having been notified, and the gate stays open
until the context takes the baton. A context that has handed its baton over for good never runs with
one again, and learns nothing more. A context that was discarded never runs with a baton; it learns
only that it was discarded, and its code does not begin if it has not before. -/
theorem Reached.keeps_batons (h : Reached v) :
    v.running + v.opened = v.natives ∧
    ∀ (i : Nat) (x : Bearer), v.bearers[i]? = some x →
      (x.stride.bears = true → x.started = true) ∧
      (x.gate = .opened → x.stride.waits = true ∧ x.stride ≠ .asleep false) ∧
      ∀ v', Relation.ReflTransGen Step v v' → ∃ y : Bearer, v'.bearers[i]? = some y ∧
        (x.gate = .opened → y.gate = .opened ∨
          ∃ since, y.learned = x.learned ++ since ∧ .proceed ∈ since) ∧
        (x.stride = .ended → y.stride = .ended ∧ y.learned = x.learned) ∧
        (x.gate = .discarded → y.stride.bears = false ∧ y.started = x.started ∧
          ∃ since, y.learned = x.learned ++ since ∧ ∀ p ∈ since, p = .discarded) := by
  have hsound := h.sound
  refine ⟨?_, fun i x hi => ⟨(hsound.fits i x hi).started, (hsound.fits i x hi).opened,
    fun v' hs => ?_⟩⟩
  · have hcount := hsound.count
    rw [Nat.add_zero] at hcount
    rw [← hcount, running, opened, ← total_add]
    rfl
  · have hfits := hsound.fits i x hi
    obtain ⟨-, y, hturns, hy⟩ := hsound.turns hs hi
    refine ⟨y, hy, fun hg => ?_, hturns.ended, fun hg => ?_⟩
    · exact (hturns.opened hg (hfits.opened hg).1).imp_left (·.1)
    · exact (hturns.discarded hg (hfits.discarded hg).1).2

theorem not_pending (hshut : ∀ y ∈ v.bearers[i]?, y.gate ≠ .opened)
    (hunsought : ∀ x ∈ v.bearers.toList, ∀ e, x.stride ≠ .handing i e) : ¬v.Pending i := by
  rintro (⟨y, hy, hopened⟩ | ⟨j, x, e, hx, hs⟩)
  · exact hshut y hy hopened
  · exact hunsought x (Array.mem_toList_iff.mpr (Array.mem_of_getElem? hx)) e hs

/-- Of two native contexts one switches to a spawned one, which hands the baton back for good before
the other waits for it. A third one is discarded before it has begun, and learns that later. -/
theorem keeps_batons_between_steps : ∃ v v' : Rally, Reached v ∧ v.bearers =
      #[⟨true, .opened, .passing, true, []⟩, ⟨true, .closed, .running, true, []⟩,
        ⟨false, .closed, .ended, true, [.proceed]⟩, ⟨false, .discarded, .passing, false, []⟩] ∧
      v.running + v.opened = v.natives ∧ v.natives = 2 ∧ Relation.ReflTransGen Step v v' ∧
      v'.bearers =
        #[⟨true, .closed, .running, true, [.proceed]⟩, ⟨true, .closed, .running, true, []⟩,
          ⟨false, .closed, .ended, true, [.proceed]⟩,
          ⟨false, .discarded, .ended, false, [.discarded]⟩] ∧
      ∃ y : Bearer, v'.bearers[3]? = some y ∧ y.stride.bears = false ∧ y.started = false := by
  have h1 : Reached ⟨#[⟨true, .closed, .running, true, []⟩, ⟨true, .closed, .running, true, []⟩,
      ⟨false, .closed, .passing, false, []⟩, ⟨false, .closed, .passing, false, []⟩]⟩ :=
    (((Relation.ReflTransGen.refl.tail .adopt).tail .adopt).tail .spawn).tail .spawn
  have h2 : Reached ⟨#[⟨true, .closed, .passing, true, []⟩, ⟨true, .closed, .running, true, []⟩,
      ⟨false, .opened, .passing, false, []⟩, ⟨false, .closed, .passing, false, []⟩]⟩ :=
    (h1.tail (@Step.call _ 0 2 _ _ false rfl rfl rfl rfl nofun
      (not_pending (by decide) (by decide)))).tail (@Step.hand _ 0 2 _ false rfl rfl)
  have h3 : Reached ⟨#[⟨true, .opened, .passing, true, []⟩, ⟨true, .closed, .running, true, []⟩,
      ⟨false, .closed, .ended, true, [.proceed]⟩, ⟨false, .closed, .passing, false, []⟩]⟩ :=
    ((h2.tail (@Step.pass _ 2 _ .closed .proceed rfl rfl rfl)).tail
      (@Step.call _ 2 0 _ _ true rfl rfl rfl rfl nofun
        (not_pending (by decide) (by decide)))).tail (@Step.hand _ 2 0 _ true rfl rfl)
  have h4 : Reached ⟨#[⟨true, .opened, .passing, true, []⟩, ⟨true, .closed, .running, true, []⟩,
      ⟨false, .closed, .ended, true, [.proceed]⟩, ⟨false, .discarded, .passing, false, []⟩]⟩ :=
    h3.tail (@Step.discard _ 3 _ rfl rfl (not_pending (by decide) (by decide)))
  have h5 : Relation.ReflTransGen Step
      ⟨#[⟨true, .opened, .passing, true, []⟩, ⟨true, .closed, .running, true, []⟩,
        ⟨false, .closed, .ended, true, [.proceed]⟩, ⟨false, .discarded, .passing, false, []⟩]⟩
      ⟨#[⟨true, .closed, .running, true, [.proceed]⟩, ⟨true, .closed, .running, true, []⟩,
        ⟨false, .closed, .ended, true, [.proceed]⟩,
        ⟨false, .discarded, .ended, false, [.discarded]⟩]⟩ :=
    (Relation.ReflTransGen.refl.tail (@Step.pass _ 0 _ .closed .proceed rfl rfl rfl)).tail
      (@Step.pass _ 3 _ .discarded .discarded rfl rfl rfl)
  obtain ⟨hcount, hcontexts⟩ := Reached.keeps_batons h4
  obtain ⟨-, -, hlater⟩ := hcontexts 3 _ rfl
  obtain ⟨y, hy, -, -, hdiscarded⟩ := hlater _ h5
  obtain ⟨hidle, hstarted, -⟩ := hdiscarded rfl
  exact ⟨_, _, h4, rfl, hcount, rfl, h5, rfl, y, hy, hidle, hstarted⟩

end Rally

end GreenThreads
