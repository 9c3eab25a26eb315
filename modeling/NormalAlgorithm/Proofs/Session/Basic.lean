/-
  NormalAlgorithm.Proofs.Session.Basic

  Sessions: names, and what becomes of a request.

    * `thing?_bind_self`, `thing?_bind_of_ne`: what names stand for after one of them has
      been given to something.
    * `perform_of_ok`, `perform_of_wrongKind`, `perform_of_error`: a request that is
      carried out leaves the new session; one that fails leaves the old one, unless a step
      has been begun.
    * `perform_keeps_of_error`: a request that moves no runner changes nothing if it fails.
-/

import NormalAlgorithm.Session.Execute

namespace NormalAlgorithm.Session

variable {m : Machine} {s : Session} {name : Name} {command : Command}

/-! ## Names -/

theorem thing?_bind_self (s : Session) (name : Name) (thing : Thing) :
    (s.bind name thing).thing? name = some thing := by
  simp [thing?, bind]

theorem thing?_bind_of_ne {other : Name} (h : other ≠ name) (s : Session) (thing : Thing) :
    (s.bind name thing).thing? other = s.thing? other := by
  have hhead : (name == other) = false := beq_eq_false_iff_ne.mpr h.symm
  simp only [thing?, bind, List.find?_cons, hhead, List.find?_filter]
  congr 2
  funext e
  by_cases he : e.1 = other
  · simp [he, h]
  · simp [he]

/-! ## Requests -/

theorem inForce_of_settings {settings : Settings} (h : s.settings = some settings) :
    s.inForce = .ok (settings, s) := by
  rw [inForce, h]

/-- A request that asks for the settings. -/
def Command.asksSettings : Command → Bool
  | .drive .. => true
  | _ => false

/-- Settings that are in force are not built again. -/
theorem prepare_of_settings (hs : command.asksSettings = true → s.settings.isSome = true) :
    s.prepare command = s := by
  unfold prepare
  split
  · obtain ⟨settings, hsettings⟩ := Option.isSome_iff_exists.mp (hs rfl)
    have hsettle : s.settle = s := by
      rw [settle, inForce_of_settings hsettings]
    rw [hsettle, ite_self]
  · rfl

theorem perform_of_ok {after : Session} {answer : Answer} (hprepare : s.prepare command = s)
    (h : s.execute command = .ok (after, answer)) :
    s.perform m command = (after, .ok answer, recordsOf s after command) := by
  simp only [perform, hprepare, h]

theorem perform_of_wrongKind (hprepare : s.prepare command = s)
    (h : s.execute command = .error .wrongKind) :
    s.perform m command = (s.begun command, .error .wrongKind, []) := by
  simp only [perform, hprepare, h]

theorem perform_of_error {fault : Fault} (hprepare : s.prepare command = s)
    (h : s.execute command = .error fault) (hkind : fault ≠ .wrongKind) :
    s.perform m command = (s, .error (fault.raised m), []) := by
  simp only [perform, hprepare, h]

theorem perform_keeps_of_error {fault : Fault} (hprepare : s.prepare command = s)
    (hmoves : command.moves? = none) (h : (s.perform m command).2.1 = .error fault) :
    (s.perform m command).1 = s := by
  cases hexecute : s.execute command with
  | ok x =>
      rw [perform_of_ok hprepare hexecute] at h
      cases h
  | error cause =>
      by_cases hkind : cause = .wrongKind
      · subst hkind
        rw [perform_of_wrongKind hprepare hexecute, begun, hmoves]
      · rw [perform_of_error hprepare hexecute hkind]

end NormalAlgorithm.Session
