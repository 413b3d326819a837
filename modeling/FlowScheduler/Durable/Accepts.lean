import FlowScheduler.Durable.RoundTrip

/-! # What a reader makes of a written value

A value outside the ranges of the durable format can be written and is then
refused. A reader that accepts what was written recovers it, whether or not the
value had been checked.
-/

namespace FlowScheduler

open ByteCodec RecordReader

section Fields

variable {α β : Type} {es : Encoding} {b : β}

theorem recovers_cons {r : Reader α} {k : α → Reader β} {c : Bytes} {a : α} (h : Reads r [c] a) :
    Recovers (r >>= k) (c :: es) b ↔ Recovers (k a) es b :=
  Recovers.after_reads (e := es) h

theorem recovers_require {p : Prop} [Decidable p] {code : ErrorCode} {message : String}
    {k : Unit → Reader β} (h : p → Recovers (k ()) es b) :
    Recovers (require p code message >>= k) es b := by
  unfold require
  split
  · rename_i hp
    rw [pure_bind]
    exact h hp
  · rintro rest c rest' hc
    cases hc

theorem recovers_check {x : Status} {k : Unit → Reader β} (h : Recovers (k ()) es b) :
    Recovers ((liftM x : Reader Unit) >>= k) es b := by
  refine Recovers.skip (a := ()) (fun data c rest hc => ?_) h
  cases x with
  | error e => cases hc
  | ok u =>
    cases hc
    exact ⟨rfl, rfl⟩

theorem recovers_enum_cons {ofCode : UInt8 → Option α} {codeOf : α → UInt8} {code : ErrorCode}
    {message : String} {k : α → Reader β} {a : α}
    (known : ∀ a', ofCode (codeOf a) = some a' → a' = a) (h : Recovers (k a) es b) :
    Recovers (enum ofCode code message >>= k) (RecordWriter.u8 (codeOf a) :: es) b := by
  rw [enum, bind_assoc, recovers_cons (reads_u8 _)]
  cases hc : ofCode (codeOf a) with
  | none =>
    rintro rest c rest' hc'
    cases hc'
  | some a' =>
    rw [known a' hc]
    exact h

theorem recovers_provenance_last {code : ErrorCode} {message : String} {k : Provenance → Reader β}
    {p : Provenance} (h : Recovers (k p) [] b) :
    Recovers (readProvenance code message >>= k) (writeProvenance p) b := by
  simpa using (Recovers.of_reads (reads_provenance p)).bind h

theorem recovers_pure (a : α) : Recovers (pure a : Reader α) [] a := .of_reads (Reads.pure a)

theorem recovers_counted {γ : Type} {r : Reader α} {enc : γ → Encoding} {f : γ → α}
    {xs : List γ} {k : List α → Reader β} {bound : ℕ} {code : ErrorCode} {message : String}
    (short : xs.length < 2 ^ 64) (each : ∀ x ∈ xs, Recovers r (enc x) (f x))
    (h : Recovers (k (xs.map f)) es b) :
    Recovers (u64 >>= fun count => require (count.toNat ≤ bound) code message >>= fun _ =>
      replicateDecoder r count.toNat >>= k)
        (RecordWriter.size xs.length :: (xs.flatMap enc ++ es)) b := by
  rw [RecordWriter.size, recovers_cons (reads_u64 _)]
  refine recovers_require fun _ => ?_
  rw [UInt64.toNat_ofNat', Nat.mod_eq_of_lt short]
  exact (Recovers.replicate each).bind h

theorem recovers_list {r : Reader α} {enc : α → Encoding} {as : List α} {k : List α → Reader β}
    {bound : ℕ} {code : ErrorCode} {message : String} (short : as.length < 2 ^ 64)
    (each : ∀ a ∈ as, Recovers r (enc a) a) (h : Recovers (k as) es b) :
    Recovers (u64 >>= fun count => require (count.toNat ≤ bound) code message >>= fun _ =>
      replicateDecoder r count.toNat >>= k)
        (RecordWriter.size as.length :: (as.flatMap enc ++ es)) b :=
  recovers_counted (f := fun a => a) short each (by rwa [List.map_id'])

end Fields

theorem recovers_flowDescriptor {d : FlowDescriptor} (short : d.dependencies.length < 2 ^ 64) :
    Recovers readFlowDescriptor (writeFlowDescriptor d) d := by
  have hdeps : ∀ a ∈ d.dependencies,
      Recovers id ((fun x : FlowId => [RecordWriter.u64 x.value]) a) a :=
    fun a _ => .of_reads (reads_id a)
  simp only [readFlowDescriptor, writeFlowDescriptor, List.cons_append, List.nil_append,
    List.append_assoc, recovers_cons (reads_id _), Recovers.after_reads (reads_binding _),
    recovers_cons (reads_u64 _), recovers_cons (reads_boolean _), recovers_cons (reads_u8 _)]
  refine recovers_require fun _ => recovers_list short hdeps ?_
  rw [recovers_cons (reads_id _)]
  exact recovers_provenance_last (recovers_pure d)

theorem DecisionReason.eq_of_ofDurableCode {a a' : DecisionReason}
    (h : DecisionReason.ofDurableCode a.code = some a') : a' = a := by
  revert h
  cases a <;> cases a' <;> decide

theorem recovers_scheduleEntry {e : ScheduleEntry} (short : e.detail.length < 2 ^ 64) :
    Recovers readScheduleEntry (writeScheduleEntry e) e := by
  simp only [readScheduleEntry, writeScheduleEntry, recovers_cons (reads_id _),
    recovers_cons (reads_u64 _), recovers_cons (reads_u32 _),
    recovers_cons (reads_enum (DecisionKind.ofCode_code e.kind))]
  refine recovers_enum_cons (fun a' => DecisionReason.eq_of_ofDurableCode) ?_
  rw [recovers_cons (reads_u64 _), recovers_cons (reads_text short)]
  exact recovers_require fun _ => recovers_pure e

theorem recovers_schedule {s : Schedule} (short : s.entries.length < 2 ^ 64)
    (each : ∀ e ∈ s.entries, e.detail.length < 2 ^ 64) :
    Recovers readSchedule (writeSchedule s) s := by
  simp only [readSchedule, writeSchedule, List.cons_append, List.nil_append, List.append_assoc,
    recovers_cons (reads_id _), recovers_cons (reads_u64 _)]
  refine recovers_list short (fun e he => recovers_scheduleEntry (each e he)) ?_
  rw [recovers_cons (reads_u64 _)]
  exact recovers_provenance_last (recovers_pure s)

theorem recovers_ticket (t : DispatchTicket) : Recovers readTicket (writeTicket t) t := by
  simp only [readTicket, writeTicket, recovers_cons (reads_id _), recovers_cons (reads_u64 _),
    recovers_cons (reads_enum (AttemptState.ofCode_code t.state))]
  exact recovers_require fun _ => recovers_require fun _ => recovers_require fun _ => recovers_pure t

theorem recovers_evidence (e : CompletionEvidence) : Recovers readEvidence (writeEvidence e) e := by
  simp only [readEvidence, writeEvidence, List.cons_append, List.nil_append,
    recovers_cons (reads_id _), recovers_cons (reads_u64 _), recovers_cons (reads_u32 _),
    recovers_cons (reads_enum (CompletionOutcome.ofCode_code e.outcome))]
  refine recovers_provenance_last ?_
  exact recovers_require fun _ => recovers_require fun _ => recovers_pure e

end FlowScheduler
