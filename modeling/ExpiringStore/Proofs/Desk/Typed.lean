import ExpiringStore.Proofs.Codec.Typed
import ExpiringStore.Proofs.Desk.Batches
import ExpiringStore.Proofs.Desk.Refused
import ExpiringStore.Proofs.Desk.ShownWrites

/-!
# Typed lookups of what was put

What is put under a key is found under it while it is live, and a lookup that asks for its type
finds it as it was.

    put writes the row of its arguments                                        (put_writes)
    a live row is found as its payload is read                                 (get_reads)
    put k v, then get k as the type of v   →   hit v                           (typed_round_trip)
-/

namespace ExpiringStore

variable {τ σ : Type}

/-- The arguments of a put are in order if they are one by one. -/
theorem Arguments.written_of_accepted {c : Config τ} {operation : String}
    {key value ttl policy : Value} {k : Key}
    {n : Option Int} {o : Policy} {p : Json} (hkey : Arguments.key key operation = .ok k)
    (httl : Arguments.ttlOr c.defaultTtl ttl operation (some k) = .ok n)
    (hpolicy : Arguments.policy policy operation (some k) = .ok o)
    (hpayload : Arguments.payload c.allowNull k value operation = .ok p) :
    Arguments.written c operation key value ttl policy = .ok ⟨k, n, o, p⟩ := by
  unfold Arguments.written
  rw [hkey]
  show (Arguments.ttlOr c.defaultTtl ttl operation (some k) >>= _) = _
  rw [httl]
  show (Arguments.policy policy operation (some k) >>= _) = _
  rw [hpolicy]
  show (Arguments.payload c.allowNull k value operation >>= _) = _
  rw [hpayload]
  rfl

theorem Lookup.ofDecoded_of_proper {v : Value} (proper : Payload.isNull v = false) :
    Lookup.ofDecoded v = .hit v := by
  cases v with
  | nullMarker => cases proper
  | _ => rfl

namespace Station

variable [OrderedInstant τ] [Delay τ] {h : Station τ σ} {c : Config τ} {s : σ}

/-- A put whose arguments are in order writes their row. -/
theorem put_writes (obliging : h.Obliging c) {key value ttl policy : Value} {w : Written}
    (given : Arguments.written c "put" key value ttl policy = .ok w)
    (fits : w.ttl.all fitsWord = true) :
    (h.answer c (.put key value ttl policy) s).1 = .ok .nothing ∧
      (h.desk (h.answer c (.put key value ttl policy) s).2).table.find? w.key.text =
        some (w.row (h.clock s)) := by
  rcases accounts_or_refused obliging (.put key value ttl policy) (s := s) with
    haccounts | ⟨f, g, a, -, -, made, hrefused⟩
  · have hvetted : Call.Vetted (Arguments.written c "put" key value ttl policy) _ _ _ := haccounts
    obtain ⟨now, told, announced, hmarks, hr⟩ := hvetted.rest given
    have hc := carried_anyway (h := h) (c := c) (s := s) (.put key value ttl policy)
    rw [hmarks] at hc
    obtain ⟨rfl, hc⟩ := Call.Carried.read hc
    obtain ⟨t', hdone, hc⟩ := Call.Carried.committed hc
    obtain ⟨htable, -⟩ := Call.Carried.counted hc announced
    refine ⟨hr, ?_⟩
    rw [htable]
    show t'.find? _ = _
    rw [Transaction.find?_commit hdone]
    simp [Transaction.onRow, Transaction.lastRow]
  · cases made with
    | @put _ _ _ _ _ w' now given' read =>
      obtain rfl := Except.ok.inj (given.symm.trans given')
      have hstorable : (w.row now).isStorable = true := isStorable_rowOf fits w.policy now
      have hrows : ∀ p ∈ [(w.key.text, w.row now)], p.2.isStorable = true := fun p mem => by
        obtain rfl := List.mem_singleton.1 mem
        exact hstorable
      obtain ⟨t', hwrite⟩ := Transaction.writeRows_of_storable (t := (h.desk s).table) hrows
      rw [Transaction.commit_eq] at hrefused
      simp only [Transaction.firstOn, hwrite] at hrefused
      cases hrefused

/-- A lookup finds a live row as its payload is read, whatever else the table keeps. -/
theorem get_reads (obliging : h.Obliging c) {key : Value} {k : Key}
    (accepted : Arguments.key key "get" = .ok k) {row : Row τ}
    (found : (h.desk s).table.find? k.text = some row) (live : row.isExpired (h.clock s) = false)
    (readable : row.payload.readError? = none) {target : Option Target} {v : Value}
    (decodes : Payload.decode row.payload.value target (some k) = .ok v) (refresh : Bool) :
    (h.answer c (.get key refresh target) s).1 = .ok (.lookup (.ofDecoded v)) := by
  rcases accounts_or_refused obliging (.get key refresh target) (s := s) with
    haccounts | ⟨f, g, a, -, -, made, hrefused⟩
  · have hvetted : Call.Vetted (Arguments.key key "get") _ _ _ := haccounts
    have hlookup := hvetted.rest accepted
    have hc := carried_anyway (h := h) (c := c) (s := s) (.get key refresh target)
    -- What was fetched is the row that is there.
    have hfetched {r : Option (Row τ)} {ms : List (Mark τ)}
        (hmarks : (h.trail c (.get key refresh target) s).marks =
          .committed (.fetch k.text) r :: ms) :
        r = some row ∧ Call.Carried (h.clock s) ms (h.desk s)
          (h.desk (h.answer c (.get key refresh target) s).2) := by
      rw [hmarks] at hc
      obtain ⟨hdone, hrest⟩ := hc.quiet rfl
      exact ⟨(Transaction.reply_fetch hdone).trans found, hrest⟩
    generalize (h.answer c (.get key refresh target) s).1 = r at hlookup
    cases hlookup with
    | missing hmarks => cases (hfetched hmarks).1
    | expired dead sweep hmarks =>
      obtain ⟨hrow, hrest⟩ := hfetched hmarks
      obtain rfl := Option.some.inj hrow
      obtain ⟨rfl, -⟩ := hrest.read
      cases live.symm.trans dead
    | found live' touch decodes' hmarks =>
      obtain ⟨hrow, -⟩ := hfetched hmarks
      obtain rfl := Option.some.inj hrow
      rw [Except.ok.inj (decodes.symm.trans decodes')]
    | undecodable live' touch fails hmarks =>
      obtain ⟨hrow, -⟩ := hfetched hmarks
      obtain rfl := Option.some.inj hrow
      cases decodes.symm.trans fails
  · cases made with
    | lookUp given =>
      obtain rfl := Except.ok.inj (accepted.symm.trans given)
      refine absurd hrefused (Transaction.commit_fetch_ne fun row' found' => ?_)
      obtain rfl := Option.some.inj (found.symm.trans found')
      exact readable
    | expire | touch => cases hrefused

/-- A value is read back as its type, from its payload and from the store.  For every target whose
values are told by their stored form, and every value but none that is exactly of its type: the
value is accepted, its payload is read as the value, and once it was put at an obliging station,
where no number is too long to be written, a lookup of the type finds it while its entry is live. -/
theorem typed_round_trip {name : String} (exact : name ∈ Catalog.exact) :
    ∃ t, Catalog.target? name = some t ∧ ∀ v, t.shape.Is v → v ≠ .none →
      ∃ p, (∀ key, Payload.encode v key = .ok p) ∧
        (∀ key, Payload.decode (Value.ofJson p) (some t) key = .ok v) ∧
        ∀ {τ σ : Type} [OrderedInstant τ] [Delay τ] (h : Station τ σ) (c : Config τ) (s : σ)
          (key ttl policy : Value) (k : Key) (n : Option Int) (o : Policy), h.Obliging c →
          Arguments.key key "put" = .ok k →
          Arguments.ttlOr c.defaultTtl ttl "put" (some k) = .ok n → n.all fitsWord = true →
          Arguments.policy policy "put" (some k) = .ok o →
          (h.answer c (.put key v ttl policy) s).1 = .ok .nothing ∧
          ∀ now refresh, (Operation.rowOf p n o (h.clock s)).isExpired now = false →
            (h.answer c (.get key refresh (some t))
              (h.advance now (h.answer c (.put key v ttl policy) s).2)).1 =
                .ok (.lookup (.hit v)) := by
  obtain ⟨t, htarget, faithful⟩ := Catalog.isFaithful_exact exact
  refine ⟨t, htarget, fun v is proper => ?_⟩
  obtain ⟨p, hencode, hdecode⟩ := Payload.decode_encode_typed faithful is proper
  refine ⟨p, hencode, hdecode, ?_⟩
  intro τ σ _ _ h c s key ttl policy k n o obliging hkey httl fits hpolicy
  have hproper := Payload.isNull_of_faithful faithful is proper
  have hpayload : Arguments.payload c.allowNull k v "put" = .ok p := by
    unfold Arguments.payload
    rw [hproper, Bool.false_and, if_neg Bool.false_ne_true]
    exact hencode (some k)
  obtain ⟨hput, hrow⟩ := put_writes obliging (s := s)
    (Arguments.written_of_accepted hkey httl hpolicy hpayload) fits
  refine ⟨hput, fun now refresh live => ?_⟩
  rw [← Lookup.ofDecoded_of_proper hproper]
  have hfound : (h.desk (h.advance now (h.answer c (.put key v ttl policy) s).2)).table.find?
      k.text = some (Operation.rowOf p n o (h.clock s)) := by
    rw [h.desk_advance]
    exact hrow
  refine get_reads obliging (Arguments.key_accepted hkey "get") hfound ?_ rfl (hdecode (some k))
    refresh
  rw [h.clock_advance]
  exact live

/-- Two records, in a list. -/
def people : Value :=
  .list [.record .declared "User" [("id", .int 1), ("name", .str "red")],
    .record .declared "User" [("id", .int 2), ("name", .str "7")]]

theorem is_people : (Shape.list Catalog.user).Is people := by
  refine ⟨_, rfl, fun w mem => ?_⟩
  have huser (n : Int) (name : String) : Catalog.user.Is
      (.record .declared "User" [("id", .int n), ("name", .str name)]) :=
    ⟨_, rfl, _, _, rfl, ⟨n, rfl⟩, _, _, rfl, ⟨name, rfl⟩, rfl⟩
  rcases List.mem_cons.1 mem with rfl | mem
  · exact huser 1 "red"
  · obtain rfl := List.mem_singleton.1 mem
    exact huser 2 "7"

/-- Settings under which an entry lives for ten seconds, if it is not told otherwise. -/
def shortLived : Config Int := { Config.plain with defaultTtl := some 10 }

/-- What is left when the records were put at nothing. -/
def peopled : Int × Desk Int :=
  ((plain false).answer shortLived (.put (.str "k") people .none (.str "sliding"))
    (0, opened Table.empty)).2

/-- Records are found as records before they expire. -/
theorem typed_round_trip_people :
    ∃ t, Catalog.target? "list[User]" = some t ∧
      ((plain false).answer shortLived (.put (.str "k") people .none (.str "sliding"))
        (0, opened Table.empty)).1 = .ok .nothing ∧
      ((plain false).answer shortLived (.get (.str "k") true (some t))
        ((plain false).advance 5 peopled)).1 = .ok (.lookup (.hit people)) := by
  have hexact : "list[User]" ∈ Catalog.exact := by decide
  obtain ⟨t, htarget, hvalues⟩ := typed_round_trip hexact
  have hlist : Catalog.target? "list[User]" = some ⟨"list", .list Catalog.user⟩ := rfl
  obtain rfl := Option.some.inj (hlist.symm.trans htarget)
  obtain ⟨p, -, -, hcalls⟩ := hvalues people is_people nofun
  obtain ⟨hput, hget⟩ := hcalls (plain false) shortLived (0, opened Table.empty) (.str "k") .none
    (.str "sliding") (.plain "k") (some 10) .sliding (obliging_plain false _) rfl rfl rfl rfl
  exact ⟨_, htarget, hput, hget 5 true rfl⟩

end Station

end ExpiringStore
