import FlowScheduler.Ledger.Held
import FlowScheduler.Steps.Windows
import FlowScheduler.Steps.Registry

/-! # Promises carried by entries and tickets

A round promises something when it grants a window, the entry carries it, and a
dispatch passes it on to the ticket. A new generation of the flow voids what its
entries carry; while an attempt is open the flow gets no new generation.
-/

namespace FlowScheduler

open OrderedMap Impl

/-- What an entry and a ticket say about the descriptor of the flow and the work it was given. -/
structure Promise where
  entry : FlowDescriptor → UInt64 → ScheduleEntry → Prop
  ticket : FlowDescriptor → UInt64 → DispatchTicket → Prop

/-- The promise is made by every grant, passed on by every dispatch, and no matter of signals. -/
structure Promise.Sincere (p : Promise) : Prop where
  granted : ∀ {s : Impl} {now e r}, s.Grants now e r → p.entry r.descriptor r.servedWork e
  issued : ∀ {s : Impl} {schedule generation e worker boot now d served}, p.entry d served e →
    p.ticket d served (s.issueTicket schedule generation e worker boot now)
  entrySignal : ∀ {d served e code}, p.entry d served e →
    p.entry { d with readinessSignal := code } served e
  ticketSignal : ∀ d served ticket code, p.ticket d served ticket →
    p.ticket { d with readinessSignal := code } served ticket

/-- Every entry whose window is still held keeps the promise for the generation it names. -/
def Promise.Windows (p : Promise) : Impl → Prop :=
  EachWindow (Carries fun r _ e => p.entry r.descriptor r.servedWork e)

/-- The promise is kept to scheduled flows and to open attempts, and the next attempt is real. -/
structure Promise.Kept (p : Promise) (s : Impl) : Prop where
  windows : p.Windows s
  held : s.ledger.Held p.ticket
  next : s.nextAttempt.valid

namespace Promise.Windows

variable {p : Promise} {s s' : Impl}

theorem move {c : Call} {r : Option Record} (h : p.Windows s) (sincere : p.Sincere)
    (move : Move c s r s') : p.Windows s' := by
  have hsame : ∀ id r r' schedule, r.SameWindow r' →
      Carries (fun r _ e => p.entry r.descriptor r.servedWork e) id r schedule →
      Carries (fun r _ e => p.entry r.descriptor r.servedWork e) id r' schedule := by
    intro id r r' schedule hwindow hcarries
    refine hcarries.sameWindow hwindow fun e hterms hkept => ?_
    rw [hterms, hwindow.served]
    exact sincere.entrySignal hkept
  rcases move with move | ⟨now, -, move⟩
  · exact EachWindow.callMove h hsame move
  · refine EachWindow.roundMove h hsame move fun entries id r' issues offered scheduled => ?_
    refine issues.carries offered scheduled fun r e hgrants hserved hdescriptor => ?_
    rw [hdescriptor, hserved]
    exact sincere.granted hgrants

end Promise.Windows

namespace Promise.Kept

variable {p : Promise} {c : Call} {s s' : Impl} {r : Option Record}

theorem idle_of_lifecycle {l : FlowLifecycle} (h : l.holdsOpenWork = false) : l.phase.idle := by
  cases l <;> first | exact ⟨by decide, by decide⟩ | cases h

theorem heeds_dispatch {schedule : ScheduleId} {generation : Generation} {ordinal : UInt32}
    {worker : WorkerId} {boot : BootId} {now : Ticks} {entry : ScheduleEntry} {flow : FlowRuntime}
    {nominal : UInt64} (h : p.Kept s) (sincere : p.Sincere)
    (d : s.Dispatches schedule generation ordinal worker boot now entry flow) :
    s.ledger.Heeds p.ticket
      (.attemptOpened (s.issueTicket schedule generation entry worker boot now) nominal now) := by
  obtain ⟨runtime, hretained, -, -, hnamed, -⟩ := d.retained
  have hwindow := h.windows entry.flow flow d.found d.scheduled runtime
    (by rw [d.holds]; exact hretained) entry (List.mem_of_getElem? hnamed) d.run rfl
  have hcurrent : s.ledger.current entry.flow entry.flowGeneration = some flow.ledger := by
    rw [Impl.ledger_current, Impl.current_eq_some.mpr ⟨d.found, d.generation⟩]
    rfl
  refine ⟨h.next, flow.ledger, hcurrent, ?_, sincere.issued (hwindow.2 d.generation.symm)⟩
  simp only [FlowRuntime.ledger, d.scheduled]
  exact ⟨by decide, by decide⟩

theorem heeds_callMove {record : Record} (h : p.Kept s) (sincere : p.Sincere)
    (move : CallMove c s (some record) s') (applied : s'.ledger = s.ledger.apply record) :
    s.ledger.Heeds p.ticket record ∨ s'.ledger = s.ledger := by
  have hledger : ∀ {id : FlowId} {f : LedgerFlow}, s.ledger.flows id = some f →
      ∃ r, s.flows[id]? = some r ∧ f = r.ledger := by
    intro id f hf
    obtain ⟨r, hr, rfl⟩ := Option.map_eq_some_iff.mp hf
    exact ⟨r, hr, rfl⟩
  cases move with
  | common move =>
    cases move with
    | close final => rcases final with rfl | rfl <;> exact .inl rfl
    | release => exact .inl trivial
  | admitFlow guard =>
    left
    obtain ⟨_, -, guard⟩ := bind_eq_ok.mp guard
    obtain ⟨_, hfresh, -⟩ := bind_eq_ok.mp guard
    rw [refuseIf_eq_ok, ← Std.ExtTreeMap.isSome_getElem?_iff_mem] at hfresh
    rw [Ledger.Heeds, Impl.ledger_flows, Option.map_eq_none_iff]
    exact Option.not_isSome_iff_eq_none.mp hfresh
  | admitRefused | updateRefused => exact .inr rfl
  | update guard happlied =>
    left
    intro f hf
    obtain ⟨r, hr, rfl⟩ := hledger hf
    unfold Impl.applyUpdate at happlied
    rw [hr] at happlied
    dsimp only at happlied
    split at happlied
    · cases happlied
    · rename_i hfree
      exact idle_of_lifecycle (Bool.eq_false_iff.mpr hfree)
  | retireFlow guard =>
    left
    intro f hf
    obtain ⟨r, hr, rfl⟩ := hledger hf
    obtain ⟨r', hnamed, guard⟩ := bind_eq_ok.mp guard
    obtain ⟨hr', -⟩ := namedFlow_eq_ok.mp hnamed
    obtain rfl := Option.some.inj (hr.symm.trans hr')
    rw [refuseIf_eq_ok, not_not] at guard
    refine idle_of_lifecycle ?_
    revert guard
    cases r.lifecycle <;> decide
  | dispatch guard => exact .inl (h.heeds_dispatch sincere (beginDispatchGuard_eq_ok.mp guard))
  | complete verdict =>
    left
    intro f hf
    obtain ⟨r, hr, rfl⟩ := hledger hf
    have hcommits := commits_of_verdict verdict
    obtain rfl := Option.some.inj (hr.symm.trans hcommits.found)
    exact hcommits.holds
  | _ => exact .inl trivial

theorem held_quiet {T : FlowDescriptor → UInt64 → DispatchTicket → Prop} {l l' : Ledger}
    (h : l.Held T) (quiet : l.Quiet l') : l'.Held T := by
  cases quiet with
  | same => exact h
  | fail found pending =>
    refine h.modifyIdle fun r hr => ?_
    obtain rfl := Option.some.inj (found.symm.trans hr)
    rw [pending]
    exact ⟨by decide, by decide⟩
  | forget gone =>
    intro a x hx hlive
    unfold Ledger.forget at hx
    dsimp only at hx
    split at hx
    · cases hx
    · exact h a x hx hlive

theorem move (h : p.Kept s) (sincere : p.Sincere) (move : Move c s r s') : p.Kept s' := by
  refine ⟨h.windows.move sincere move, ?_, ?_⟩
  · rcases move with move | ⟨now, -, move⟩
    · cases r with
      | none =>
        rw [move.quiet]
        exact h.held
      | some record =>
        rcases move.ledger with hl | ⟨-, rfl⟩
        · rcases h.heeds_callMove sincere move hl with heeds | hsame
          · rw [hl]
            exact h.held.apply sincere.ticketSignal heeds
          · rw [hsame]
            exact h.held
        · exact h.held
    · cases r with
      | none => exact held_quiet h.held move.quiet
      | some record =>
        rw [move.ledger]
        refine h.held.apply sincere.ticketSignal ?_
        cases move with
        | common move =>
          cases move with
          | close final => rcases final with rfl | rfl <;> rfl
          | release => trivial
        | issue => trivial
  · exact move.nextAttempt_valid h.next

theorem of_empty (schedules : s.schedules = ∅) (attempts : s.attempts = ∅)
    (next : s.nextAttempt.valid) : p.Kept s where
  windows := EachWindow.of_schedules_empty schedules
  held a x hx := by simp [Impl.ledger, attempts] at hx
  next := next

end Promise.Kept

end FlowScheduler
