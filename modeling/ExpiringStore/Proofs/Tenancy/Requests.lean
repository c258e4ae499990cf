import ExpiringStore.Proofs.Call.Lookups
import ExpiringStore.Proofs.Tenancy.Rows

/-!
# What requests do to rows

Whatever a request is answered, it attempts only what keeps rows proper.  If what it is answered is
fair, its lookups end without a failure about a payload, and without a null unless there may be
nulls; but a conditional insertion may refuse the value that it is given.

    request.operation c   attempts what request.Permits c               (Request.confined_operation)
    request.operation c   ends as request.Ends c, after fair answers      (Request.abides_operation)
-/

namespace ExpiringStore

variable {τ α β : Type}

/-! ## Programs that are confined -/

/-- Where effects are permitted after anything, what was done before does not matter. -/
theorem Program.follows_of_only {permits : List (Deed τ) → Transaction τ → Prop} {x : Program τ α}
    {ends : Unit → α → Prop} {ends' : Past τ → α → Prop} (any : ∀ p a, ends' p a)
    (h : x.Abides (Rule.only fun e => ∀ deeds, e.Permitted permits deeds) ends ()) (p : Past τ) :
    x.Follows permits ends' p := by
  induction x generalizing p with
  | done a => exact any p a
  | ask e next ih => exact ⟨h.1 p.deeds, fun r => ih r (h.2 r) _⟩

namespace Operation

variable {permits permits' : List (Deed τ) → Transaction τ → Prop}

/-- Whatever was done before, an operation attempts only what is permitted. -/
def Confined (permits : List (Deed τ) → Transaction τ → Prop) (x : Operation τ α) : Prop :=
  ∀ p, x.Follows permits (fun _ _ => True) (fun _ _ => True) p

theorem confined_pure (a : α) : Confined permits (pure a : Operation τ α) := fun _ => trivial

theorem confined_throw (f : Failure) : Confined permits (throw f : Operation τ α) :=
  fun _ => trivial

theorem confined_bind {x : Operation τ α} {f : α → Operation τ β} (hx : Confined permits x)
    (hf : ∀ a, Confined permits (f a)) : Confined permits (x >>= f) := fun p =>
  (follows_bind x f).2 ((hx p).mono (fun q a _ => hf a q) fun _ _ _ => trivial)

theorem confined_map {x : Operation τ α} (hx : Confined permits x) (g : α → β) :
    Confined permits (g <$> x) := fun p => (follows_map g x).2 (hx p)

theorem confined_tryCatch {x : Operation τ α} {f : Failure → Operation τ α}
    (hx : Confined permits x) (hf : ∀ a, Confined permits (f a)) :
    Confined permits (tryCatch x f) := fun p =>
  (follows_tryCatch x f).2 ((hx p).mono (fun _ _ _ => trivial) fun q a _ => hf a q)

/-- Effects that are permitted after anything are all that is asked for. -/
theorem confined_of_asks {x : Operation τ α}
    (h : Asks (fun e => ∀ deeds, e.Permitted permits deeds) x) : Confined permits x :=
  Program.follows_of_only (fun _ r => by cases r <;> trivial) h

/-- What follows a rule from nothing on is confined by any that permits as much after more. -/
theorem Follows.confined {ok : Past τ → α → Prop} {bad : Past τ → Failure → Prop}
    {x : Operation τ α} (h : x.Follows permits ok bad {})
    (weaker : ∀ deeds deeds' a, permits deeds a → permits' (deeds' ++ deeds) a) :
    Confined permits' x := fun p =>
  h.after p (fun deeds a permitted => weaker deeds p.deeds a permitted) (fun _ _ _ => trivial)
    fun _ _ _ => trivial

end Operation

/-! ## Requests with their answers -/

namespace Request

open Operation (Confined confined_bind confined_map confined_of_asks)

variable [Instant τ] [Delay τ]

def operation (c : Config τ) : Request → Operation τ Answer
  | .errand e => e.program c
  | request => (fun _ => .nothing) <$> request.program c

omit [Delay τ] in
/-- Effects other than transactions are permitted to all requests. -/
theorem permitted_of_isFormal {c : Config τ} {request : Request} {e : Effect τ}
    (formal : e.isFormal = true) (deeds : List (Deed τ)) :
    e.Permitted (request.Permits c) deeds := by
  cases e with
  | attempt => cases formal
  | _ => trivial

section
variable (c : Config τ)

omit [Delay τ] in
theorem confined_startup (request : Request) :
    Confined (request.Permits c) (Operation.startup c) :=
  confined_of_asks (Operation.asks_startup (fun _ => permitted_of_isFormal) c)

theorem confined_ping (request : Request) : Confined (request.Permits c) (Operation.ping c) :=
  confined_bind (confined_of_asks (Operation.asks_transact c (fun _ _ _ _ _ => trivial)
    (fun _ _ => trivial) fun _ _ => trivial)) fun _ => Operation.confined_pure true

omit [Delay τ] in
theorem confined_checked (request : Request) (event : String) {x : Operation τ Bool}
    (hx : Confined (request.Permits c) x) :
    Confined (request.Permits c) (Operation.checked event x) := by
  refine Operation.confined_tryCatch hx fun f => ?_
  cases f with
  | complaint complaint =>
    exact confined_bind (fun p => (Operation.follows_log _).2 trivial) fun _ =>
      Operation.confined_pure false
  | _ => exact Operation.confined_throw _

theorem confined_checkHealth : Confined (checkHealth.Permits c) (Operation.checkHealth c) := by
  have hcache : Confined (checkHealth.Permits c) (Operation.checkCache c) :=
    (Operation.follows_checkCache c).confined fun deeds deeds' a probes =>
      probes.permitted.mono (List.subset_append_right _ _)
  have hsize : Confined (checkHealth.Permits c) (Operation.size c) :=
    (Operation.serves_size c).confined fun deeds deeds' a makes => by
      cases makes
      exact fun _ _ _ _ => trivial
  refine confined_bind (confined_startup c _) fun _ => ?_
  refine confined_bind (confined_checked c _ _ (confined_ping c _)) fun database => ?_
  refine confined_bind hcache fun cache => ?_
  -- The size is counted only if the check of the entries has passed.
  split
  · exact confined_bind hsize fun n => Operation.confined_pure _
  · exact Operation.confined_pure _

/-- A request attempts only what keeps rows proper, whatever it is answered. -/
theorem confined_operation (least : ∀ n ∈ c.defaultTtl, 1 ≤ n) (request : Request) :
    Confined (request.Permits c) (request.operation c) := by
  cases request with
  | errand e =>
    cases e with
    | startup => exact confined_map (confined_startup c _) _
    | shutdown =>
      exact confined_map (confined_of_asks (Operation.asks_shutdown
        (fun _ => permitted_of_isFormal) c fun _ _ => trivial)) _
    | call call =>
      have hfollows : Operation.Follows (call.Makes c) (fun _ _ => True) (fun _ _ => True)
          (call.program c) {} :=
        Program.Follows.mono (fun _ r _ => by cases r <;> trivial) (call.follows_program c)
      exact hfollows.confined fun deeds deeds' a makes =>
        (makes.permitted least).mono (List.subset_append_right _ _)
  | ping => exact confined_map (confined_map (confined_ping c _) _) _
  | tableExists =>
    exact confined_map (confined_map (confined_of_asks (Operation.asks_tableExists
      fun _ => permitted_of_isFormal)) _) _
  | checkHealth => exact confined_map (confined_map (confined_checkHealth c) _) _

end

/-! ## How requests end -/

/-- How a request ends where the rows can be decoded. -/
def Ends (c : Config τ) : Request → Except Failure Answer → Prop
  | .errand (.call (.get _ _ none)) => fun r =>
    Blameless r ∧ (c.allowNull = false → r ≠ .ok (.lookup .null))
  | .errand (.call (.getAll _ none)) => fun r =>
    Blameless r ∧ (c.allowNull = false →
      ∀ found, r = .ok (.found found) → ∀ p ∈ found, p.2 ≠ .nullMarker)
  | .errand (.call (.putIfAbsent key value ttl policy)) => fun r =>
    (∀ f, r = .error f → f.isAboutPayload = true →
      Arguments.written c "put_if_absent" key value ttl policy = .error f) ∧
      (c.allowNull = false → r ≠ .ok (.lookup .null))
  | _ => fun _ => True

omit [Instant τ] [Delay τ] in
/-- What an operation ends as, its request answers. -/
theorem abides_answering {rule : Rule τ Prop} {ok : Prop → α → Prop} {bad : Prop → Failure → Prop}
    {ends : Prop → Except Failure Answer → Prop} {told : Prop} {x : Operation τ α}
    (answer : α → Answer) (h : x.Abides rule ok bad told)
    (hok : ∀ told a, ok told a → ends told (.ok (answer a)))
    (hbad : ∀ told f, bad told f → ends told (.error f)) :
    (ExceptT.run (answer <$> x)).Abides rule ends told := by
  have hx : (answer <$> x).Abides rule (fun told a => ends told (.ok a))
      (fun told f => ends told (.error f)) told :=
    (Operation.abides_map answer x).2 (Operation.Abides.mono h hok hbad)
  refine Program.Abides.mono (fun told r hr => ?_) hx
  cases r with
  | ok a => exact hr
  | error f => exact hr

theorem abides_operation (c : Config τ) (request : Request) :
    (ExceptT.run (request.operation c)).Abides (Rule.fair c.allowNull)
      (fun told r => told → request.Ends c r) True := by
  unfold Ends
  split
  · next key refresh =>
    refine abides_answering .lookup (Operation.yields_get key refresh) (fun told r hr fair => ?_)
      fun told f hf fair => ⟨blameless_error (hf fair), fun _ => nofun⟩
    exact ⟨blameless_ok _, fun hnulls heq => hr fair hnulls (by cases heq; rfl)⟩
  · next keys =>
    refine abides_answering .found (Operation.yields_getAll keys) (fun told r hr fair => ?_)
      fun told f hf fair => ⟨blameless_error (hf fair), fun _ _ => nofun⟩
    refine ⟨blameless_ok _, fun hnulls found heq p mem => hr fair p ?_ hnulls⟩
    cases heq
    exact mem
  · next key value ttl policy =>
    refine abides_answering .lookup (Operation.abides_putIfAbsent key value ttl policy)
      (fun told r hr fair => ?_) fun told f hf fair => ⟨fun f' heq => ?_, fun _ => nofun⟩
    · exact ⟨nofun, fun hnulls heq => hr fair hnulls (by cases heq; rfl)⟩
    · obtain rfl := Except.error.inj heq
      exact hf fair
  · exact Program.abides_fair _ fun _ _ _ _ => trivial

end Request

end ExpiringStore
