import QpidPmda.Qmf1.PmdaRuns

/-! # What ties the PMDA's structures together

Two invariants hold after every run. Every id on its way from the queue to the
cache has properties of a supported class in the listener. And the cache and
the domains of the PMDA are what the registrations of the trace, the last one
for each instance, make them.
-/

namespace QpidPmda.Qmf1
open Qpid Pcp ConsoleUtils ConsoleValue Foundations ConsoleListener

namespace System
variable {ObjectId Value : Type} {P : Library ObjectId} [ConsoleValue Value ObjectId]
  [ToString ObjectId] [DecidableEq ObjectId]

/-- Every id that the PMDA has to do with has supported properties. -/
structure Accounted (s : System P Value) : Prop where
  stored : ∀ x object, s.pmda.listener.getProps x = some object →
    isSupported object.classKey = true ∧ object.objectId = x
  queued : ∀ x ∈ s.pmda.listener.newObjects, (s.pmda.listener.getProps x).isSome
  popped : ∀ x, s.progress = .popped x → (s.pmda.listener.getProps x).isSome
  fetched : ∀ x props, s.progress = .fetched x props → (s.pmda.listener.getProps x).isSome ∧
    ∃ object, props = some object ∧ isSupported object.classKey = true ∧ object.objectId = x
  traced : ∀ x exit, (x, exit) ∈ s.trace → (s.pmda.listener.getProps x).isSome ∧
    exit ≠ .noProperties ∧ exit ≠ .unsupportedType
  registered : ∀ x r, (x, .registered r) ∈ s.trace → r.objectId = x ∧
    domainOfType (getTypeObject r.props) = some r.domain ∧ getName r.props true = .ok r.name ∧
    r.name ≠ "" ∧ r.props.objectId = x

variable {pmDebug : DebugFlags} {includeAutoDelete : Bool}

omit [ToString ObjectId] in
/-- An invariant of the ids survives when entries are only replaced by supported ones. -/
theorem Accounted.withListener {s : System P Value}
    (h : Accounted s) {listener : ConsoleListener ObjectId Value}
    (hstored : ∀ x object, listener.getProps x = some object →
      isSupported object.classKey = true ∧ object.objectId = x)
    (hkept : ∀ x, (s.pmda.listener.getProps x).isSome → (listener.getProps x).isSome)
    (hqueued : ∀ x ∈ listener.newObjects, (listener.getProps x).isSome) :
    Accounted (s.withListener listener) where
  stored := hstored
  queued := hqueued
  popped x hx := hkept x (h.popped x hx)
  fetched x props hx := (h.fetched x props hx).imp_left (hkept x)
  traced x exit hx := (h.traced x exit hx).imp_left (hkept x)
  registered := h.registered

theorem accounted_exec (action : Action ObjectId Value) {s : System P Value} (h : Accounted s) :
    Accounted (exec pmDebug action s) := by
  have hdoes := exec_does pmDebug action s
  generalize exec pmDebug action s = s' at hdoes
  cases hdoes with
  | objectProps object =>
    refine h.withListener (fun x stored hx => ?_) (fun x => objectProps_kept pmDebug object)
      fun x hx => ?_
    · rcases objectProps_getProps hx with hx | ⟨hsaved, rfl, rfl⟩
      · exact h.stored x stored hx
      · exact ⟨propsSaved_supported hsaved, rfl⟩
    · rcases objectProps_queued hx with hx | hx
      · exact objectProps_kept pmDebug object (h.queued x hx)
      · exact hx
  | objectStats object =>
    refine h.withListener (fun x stored hx => ?_) (fun x hx => ?_) fun x hx => ?_
    · exact h.stored x stored (by simpa [getProps] using hx)
    · simpa [getProps] using hx
    · have hmem := h.queued x (by simpa using hx)
      simpa [getProps] using hmem
  | begun hidle =>
    exact ⟨h.stored, h.queued, by simp, by simp, h.traced, h.registered⟩
  | nothing => exact h
  | drained hlooping hq =>
    exact ⟨h.stored, h.queued, by simp, by simp, h.traced, h.registered⟩
  | popped objectId rest hlooping hq =>
    refine ⟨h.stored, fun x hx => ?_, fun x hx => ?_, by simp, h.traced, h.registered⟩
    · exact h.queued x (by rw [hq]; exact List.mem_cons_of_mem _ hx)
    · obtain rfl := Progress.popped.inj hx
      exact h.queued objectId (by rw [hq]; exact List.mem_cons_self)
  | fetched objectId hpopped =>
    refine ⟨h.stored, h.queued, by simp, fun x props hx => ?_, h.traced, h.registered⟩
    obtain ⟨rfl, rfl⟩ := Progress.fetched.inj hx
    have hsome := h.popped objectId hpopped
    obtain ⟨object, hobject⟩ := Option.isSome_iff_exists.mp hsome
    exact ⟨hsome, object, hobject, h.stored objectId object hobject⟩
  | ended objectId props exit pmda hfetched hr =>
    obtain ⟨hsome, object, rfl, hsupported, hid⟩ := h.fetched objectId props hfetched
    have hlistener := hr.listener
    have hprogress : ∀ x, (if exit.leaves.isNone then Progress.looping else .idle) ≠
        (.popped x : Progress ObjectId Value) := by
      intro x; split_ifs <;> simp
    have hprogress' : ∀ x props, (if exit.leaves.isNone then Progress.looping else .idle) ≠
        (.fetched x props : Progress ObjectId Value) := by
      intro x props; split_ifs <;> simp
    refine ⟨?_, ?_, fun x hx => absurd hx (hprogress x), fun x props hx =>
      absurd hx (hprogress' x props), fun x e hx => ?_, fun x r hx => ?_⟩
    · rw [hlistener]; exact h.stored
    · rw [hlistener]; exact h.queued
    · rw [hlistener]
      rcases List.mem_append.mp hx with hx | hx
      · exact h.traced x e hx
      · obtain ⟨rfl, rfl⟩ := Prod.mk.inj (List.mem_singleton.mp hx)
        refine ⟨hsome, ?_⟩
        cases hr with
        | unsupportedType _ hnone => exact absurd hnone (Pmda.domainOfType_supported hsupported)
        | _ => exact ⟨by simp, by simp⟩
    · rcases List.mem_append.mp hx with hx | hx
      · exact h.registered x r hx
      · obtain ⟨rfl, rfl⟩ := Prod.mk.inj (List.mem_singleton.mp hx)
        cases hr with
        | registered _ cache hobject hdomain hname hne hstore =>
          exact ⟨hobject, hdomain, hname, hne, hid⟩

omit [ToString ObjectId] in
theorem accounted_initial : Accounted (initial P Value includeAutoDelete) :=
  ⟨by simp [initial, Pmda.initial, start, setIncludeAutoDelete, new, getProps],
    by simp [initial, Pmda.initial, start, setIncludeAutoDelete, new], by simp [initial],
    by simp [initial], by simp [initial], by simp [initial]⟩

theorem after_accounted (actions : List (Action ObjectId Value)) :
    Accounted (after P pmDebug includeAutoDelete actions) :=
  run_invariant (exec pmDebug) (fun action _ h => accounted_exec action h) actions
    accounted_initial

/-- The registration at an instance of a domain, if the iteration ended with it. -/
def registrationAt (domain : Domain) (i : Int) :
    ObjectId × IterationExit ObjectId Value → Option (Registration ObjectId Value)
  | (_, .registered r) => if r.domain = domain ∧ r.inst = i then some r else none
  | _ => none

/-- The most recent registration at an instance of a domain. -/
def lastRegistration (s : System P Value) (domain : Domain) (i : Int) :
    Option (Registration ObjectId Value) := lastOf (registrationAt domain i) s.trace

/-- The cache and the domains show the last registration of each instance. -/
structure Cached (s : System P Value) : Prop where
  unregistered : ∀ d i, s.lastRegistration d i = none →
    (∀ entry, P.lookup s.pmda.cache d.indom i ≠ .ok entry) ∧
      P.instanceName (s.pmda.domains d) i = none
  registered : ∀ d i r, s.lastRegistration d i = some r →
    P.lookup s.pmda.cache d.indom i = .ok ⟨r.name, some r.objectId⟩ ∧
      P.instanceName (s.pmda.domains d) i = some r.name
  /-- A name has one instance. -/
  names : ∀ d i j r r', s.lastRegistration d i = some r → s.lastRegistration d j = some r' →
    r.name = r'.name → i = j
  /-- An instance keeps its name. -/
  stable : ∀ x r, (x, .registered r) ∈ s.trace →
    ∃ r', s.lastRegistration r.domain r.inst = some r' ∧ r'.name = r.name

omit [ConsoleValue Value ObjectId] [ToString ObjectId] [DecidableEq ObjectId] in
theorem Cached.of_same {s s' : System P Value} (h : Cached s)
    (hlast : ∀ d i, s'.lastRegistration d i = s.lastRegistration d i)
    (hmem : ∀ x r, (x, .registered r) ∈ s'.trace → (x, .registered r) ∈ s.trace)
    (hcache : s'.pmda.cache = s.pmda.cache) (hdomains : s'.pmda.domains = s.pmda.domains) :
    Cached s' := by
  refine ⟨?_, ?_, ?_, ?_⟩
  · intro d i hi
    rw [hcache, hdomains]
    exact h.unregistered d i (hlast d i ▸ hi)
  · intro d i r hr
    rw [hcache, hdomains]
    exact h.registered d i r (hlast d i ▸ hr)
  · intro d i j r r' hr hr'
    exact h.names d i j r r' (hlast d i ▸ hr) (hlast d j ▸ hr')
  · intro x r hx
    rw [hlast]
    exact h.stable x r (hmem x r hx)

omit [ConsoleValue Value ObjectId] [ToString ObjectId] [DecidableEq ObjectId] in
theorem Cached.exists_registration {s : System P Value} (h : Cached s) {d : Domain} {i : Int}
    (hlisted : P.instanceName (s.pmda.domains d) i ≠ none ∨
      ∃ entry, P.lookup s.pmda.cache d.indom i = .ok entry) :
    ∃ r, s.lastRegistration d i = some r := by
  cases hr : s.lastRegistration d i with
  | some r => exact ⟨r, rfl⟩
  | none =>
    obtain ⟨hlookup, hname⟩ := h.unregistered d i hr
    rcases hlisted with hlisted | ⟨entry, hentry⟩
    · exact absurd hname hlisted
    · exact absurd hentry (hlookup entry)

omit [ConsoleValue Value ObjectId] [ToString ObjectId] [DecidableEq ObjectId] in
/-- What was registered stays stored and listed under its name. -/
theorem Cached.kept {s : System P Value} (h : Cached s) {x : ObjectId}
    {r : Registration ObjectId Value} (hr : (x, .registered r) ∈ s.trace) :
    P.instanceName (s.pmda.domains r.domain) r.inst = some r.name ∧
      ∃ entry, P.lookup s.pmda.cache r.domain.indom r.inst = .ok entry ∧ entry.name = r.name := by
  obtain ⟨last, hlast, hname⟩ := h.stable x r hr
  obtain ⟨hlookup, hlisted⟩ := h.registered _ _ last hlast
  exact ⟨hname ▸ hlisted, _, hlookup, hname⟩

omit [ConsoleValue Value ObjectId] [ToString ObjectId] [DecidableEq ObjectId] in
theorem lastRegistration_registered (s : System P Value) (x : ObjectId)
    (r : Registration ObjectId Value) (pmda : Pmda P Value) (progress : Progress ObjectId Value)
    (d : Domain) (i : Int) :
    lastRegistration ⟨pmda, progress, s.trace ++ [(x, .registered r)]⟩ d i =
      if r.domain = d ∧ r.inst = i then some r else s.lastRegistration d i := by
  rw [lastRegistration, lastOf_concat, registrationAt]
  split_ifs <;> rfl

omit [ConsoleValue Value ObjectId] [ToString ObjectId] [DecidableEq ObjectId] in
theorem lookup_registered (hP : P.Lawful) {c cache : P.Cache} {r : Registration ObjectId Value}
    (hstore : P.store c r.domain.indom r.name r.objectId = .ok (r.inst, cache)) (d : Domain)
    (i : Int) : P.lookup cache d.indom i =
      if r.domain = d ∧ r.inst = i then .ok ⟨r.name, some r.objectId⟩
      else P.lookup c d.indom i := by
  split_ifs with hat
  · obtain ⟨rfl, rfl⟩ := hat
    exact hP.lookup_stored hstore
  · refine hP.lookup_other hstore d.indom i fun heq => hat ?_
    obtain ⟨hd, hi⟩ := Prod.mk.inj heq
    exact ⟨(indom_injective hd).symm, hi.symm⟩

omit [ConsoleValue Value ObjectId] [ToString ObjectId] [DecidableEq ObjectId] in
theorem Cached.name_eq (hP : P.Lawful) {s : System P Value} (h : Cached s)
    {r r' : Registration ObjectId Value} {cache : P.Cache}
    (hstore : P.store s.pmda.cache r.domain.indom r.name r.objectId = .ok (r.inst, cache))
    (hlast : s.lastRegistration r.domain r.inst = some r') : r'.name = r.name :=
  hP.store_unused hstore _ (h.registered _ _ r' hlast).1

omit [ConsoleValue Value ObjectId] [ToString ObjectId] [DecidableEq ObjectId] in
theorem Cached.instanceName_registered (hP : P.Lawful) {s : System P Value} (h : Cached s)
    {r : Registration ObjectId Value} {cache : P.Cache}
    (hstore : P.store s.pmda.cache r.domain.indom r.name r.objectId = .ok (r.inst, cache))
    (d : Domain) (i : Int) :
    P.instanceName ((Pmda.addRegistration r cache s.pmda).domains d) i =
      if r.domain = d ∧ r.inst = i then some r.name
      else P.instanceName (s.pmda.domains d) i := by
  have hname (m : String) (hm : P.instanceName (s.pmda.domains r.domain) r.inst = some m) :
      m = r.name := by
    obtain ⟨r', hr'⟩ := h.exists_registration (.inl (by rw [hm]; simp))
    have hlisted := (h.registered _ _ r' hr').2
    exact (Option.some.inj (hm.symm.trans hlisted)).trans (h.name_eq hP hstore hr')
  have hadd := hP.instanceName_add (s.pmda.domains r.domain) r.inst r.name hname
  simp only [Pmda.addRegistration]
  by_cases hd : r.domain = d
  · subst hd
    rw [Function.update_self, hadd, Function.update_apply]
    simp [eq_comm]
  · rw [Function.update_of_ne (Ne.symm hd), if_neg fun hat => hd hat.1]

omit [ConsoleValue Value ObjectId] [ToString ObjectId] [DecidableEq ObjectId] in
theorem cached_registered (hP : P.Lawful) {s : System P Value} (h : Cached s)
    {objectId : ObjectId} {r : Registration ObjectId Value} {cache : P.Cache}
    (hstore : P.store s.pmda.cache r.domain.indom r.name objectId = .ok (r.inst, cache))
    (hid : r.objectId = objectId) (progress : Progress ObjectId Value) :
    Cached { pmda := Pmda.addRegistration r cache s.pmda
             progress := progress
             trace := s.trace ++ [(objectId, .registered r)] } := by
  subst hid
  have hlookup := lookup_registered hP hstore
  have hlisted := h.instanceName_registered hP hstore
  refine ⟨?_, ?_, ?_, ?_⟩
  · intro d i hi
    rw [lastRegistration_registered] at hi
    split_ifs at hi with hat
    rw [hlisted, if_neg hat]
    refine ⟨fun entry => ?_, (h.unregistered d i hi).2⟩
    rw [Pmda.addRegistration, hlookup, if_neg hat]
    exact (h.unregistered d i hi).1 entry
  · intro d i r' hr'
    rw [lastRegistration_registered] at hr'
    rw [hlisted, Pmda.addRegistration, hlookup]
    split_ifs at hr' ⊢ with hat
    · obtain rfl := Option.some.inj hr'
      exact ⟨rfl, rfl⟩
    · exact h.registered d i r' hr'
  · intro d i j r₁ r₂ h₁ h₂ heq
    rw [lastRegistration_registered] at h₁ h₂
    -- a known name keeps its instance, so a new registration agrees with the known one
    have hknown (k : Int) (r' : Registration ObjectId Value) (hd : r.domain = d)
        (hr' : s.lastRegistration d k = some r') (hrn : r'.name = r.name) : k = r.inst := by
      subst hd
      exact hP.store_known hstore k _ (h.registered _ k r' hr').1 hrn
    split_ifs at h₁ h₂ with hi hj hj
    · exact hi.2.symm.trans hj.2
    · obtain rfl := Option.some.inj h₁
      exact hi.2.symm.trans (hknown j r₂ hi.1 h₂ heq.symm).symm
    · obtain rfl := Option.some.inj h₂
      exact (hknown i r₁ hj.1 h₁ heq).trans hj.2
    · exact h.names d i j r₁ r₂ h₁ h₂ heq
  · intro x r' hx
    rw [lastRegistration_registered]
    rcases List.mem_append.mp hx with hx | hx
    · obtain ⟨r₁, hr₁, hn₁⟩ := h.stable x r' hx
      split_ifs with hat
      · rw [← hat.1, ← hat.2] at hr₁
        exact ⟨r, rfl, (h.name_eq hP hstore hr₁).symm.trans hn₁⟩
      · exact ⟨r₁, hr₁, hn₁⟩
    · obtain ⟨-, hr⟩ := Prod.mk.inj (List.mem_singleton.mp hx)
      obtain rfl := IterationExit.registered.inj hr
      exact ⟨r', by simp, rfl⟩

theorem cached_exec (hP : P.Lawful) (action : Action ObjectId Value) {s : System P Value}
    (h : Cached s) : Cached (exec pmDebug action s) := by
  have hdoes := exec_does pmDebug action s
  generalize exec pmDebug action s = s' at hdoes
  cases hdoes with
  | ended objectId props exit pmda hfetched hr =>
    by_cases hregistered : ∃ r, exit = .registered r
    · obtain ⟨r, rfl⟩ := hregistered
      cases hr with
      | registered _ cache hid hdomain hname hne hstore =>
        exact cached_registered hP h hstore hid _
    · have hne (r : Registration ObjectId Value) : exit ≠ .registered r := fun heq =>
        hregistered ⟨r, heq⟩
      obtain rfl := hr.same hne
      have hnone (d : Domain) (i : Int) : registrationAt d i (objectId, exit) = none := by
        cases exit with
        | registered r => exact absurd rfl (hne r)
        | _ => rfl
      refine h.of_same (fun d i => ?_) (fun x r hx => ?_) rfl rfl
      · rw [lastRegistration, lastOf_concat, hnone]
        rfl
      · rcases List.mem_append.mp hx with hx | hx
        · exact hx
        · exact absurd (Prod.mk.inj (List.mem_singleton.mp hx)).2.symm (hne r)
  | _ => exact h.of_same (fun _ _ => rfl) (fun _ _ => id) rfl rfl

theorem after_cached (hP : P.Lawful) (actions : List (Action ObjectId Value)) :
    Cached (after P pmDebug includeAutoDelete actions) := by
  refine run_invariant (exec pmDebug) (fun action s h => cached_exec hP action h) actions ?_
  refine ⟨fun d i _ => ⟨fun entry => ?_, ?_⟩, ?_, ?_, ?_⟩
  · exact hP.lookup_empty d.indom i entry
  · exact hP.instanceName_empty i
  · simp [lastRegistration, initial]
  · simp [lastRegistration, initial]
  · simp [initial]

end System

end QpidPmda.Qmf1
