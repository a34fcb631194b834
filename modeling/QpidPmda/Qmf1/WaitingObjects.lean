import QpidPmda.Pcp.NameTable
import QpidPmda.Qmf1.PmdaInvariants

/-! # Objects that wait for their registration

An id leaves the queue before its iteration decides anything, and nothing puts
it back. So an object whose iteration ended without a registration is lost if a
later update gives it a name. While this does not happen, every named object is
still waiting or is registered.
-/

namespace QpidPmda.Qmf1
open Qpid Pcp ConsoleUtils ConsoleValue Foundations ConsoleListener

namespace System
variable {ObjectId Value : Type} {P : Library ObjectId} [ConsoleValue Value ObjectId]
  [ToString ObjectId] [DecidableEq ObjectId] {pmDebug : DebugFlags} {includeAutoDelete : Bool}

/-- The ids whose iteration ended without a registration. -/
def dropped (s : System P Value) : List ObjectId :=
  s.trace.filterMap fun x => match x.2 with
    | .registered _ => none
    | _ => some x.1

/-- The object was stored in the cache, and its name is listed in the domain of its type. -/
def Registered (s : System P Value) (x : ObjectId) : Prop :=
  ∃ r, (x, .registered r) ∈ s.trace ∧ domainOfType (getTypeObject r.props) = some r.domain ∧
    P.instanceName (s.pmda.domains r.domain) r.inst = some r.name ∧
    ∃ entry, P.lookup s.pmda.cache r.domain.indom r.inst = .ok entry ∧ entry.name = r.name

/-- No name comes too late for its object, and no iteration drops an object that has one. -/
def Spared (pmDebug : DebugFlags) (s : System P Value) : Action ObjectId Value → Prop
  | .objectProps object => propsSaved pmDebug s.pmda.listener.includeAutoDelete object = true →
      Named object → object.objectId ∉ s.dropped
  | .advance => ∀ x props current, s.progress = .fetched x (some props) →
      s.pmda.listener.getProps x = some current → Named current →
      ∃ domain name result, domainOfType (getTypeObject props) = some domain ∧
        getName props true = .ok name ∧ name ≠ "" ∧
        P.store s.pmda.cache domain.indom name x = .ok result
  | _ => True

/-- The message about the object, if it is new, can be built. -/
def Logged : Action ObjectId Value → Prop
  | .objectProps object => ∃ text, toStringObject object false = .ok text
  | _ => True

/-- The id is in the hands of the call under way. -/
def InHand (s : System P Value) (x : ObjectId) : Prop :=
  s.progress = .popped x ∨ ∃ props, s.progress = .fetched x props

/-- Where an object can be that the listener knows. -/
def Followed (s : System P Value) : Prop :=
  ∀ x object, s.pmda.listener.getProps x = some object →
    x ∈ s.pmda.listener.newObjects ∨ s.InHand x ∨ (∃ r, (x, .registered r) ∈ s.trace) ∨
      x ∈ s.dropped ∧ ¬ Named object

omit [ConsoleValue Value ObjectId] [ToString ObjectId] [DecidableEq ObjectId] in
theorem not_inHand {s : System P Value} (h : s.progress = .idle ∨ s.progress = .looping)
    (x : ObjectId) : ¬ s.InHand x := by
  rintro (hp | ⟨props, hp⟩) <;> rcases h with h | h <;> exact absurd (h.symm.trans hp) (by simp)

omit [ConsoleValue Value ObjectId] [ToString ObjectId] in
/-- Between two iterations no id is in the hands of the call. -/
theorem Followed.free [ConsoleValue Value ObjectId] {s : System P Value} (h : Followed s)
    (hfree : s.progress = .idle ∨ s.progress = .looping) {x : ObjectId}
    {object : Object ObjectId Value} (hx : s.pmda.listener.getProps x = some object) :
    x ∈ s.pmda.listener.newObjects ∨ (∃ r, (x, .registered r) ∈ s.trace) ∨
      x ∈ s.dropped ∧ ¬ Named object := by
  rcases h x object hx with hqueue | hhand | hrest
  · exact .inl hqueue
  · exact absurd hhand (not_inHand hfree x)
  · exact .inr hrest

theorem followed_exec {action : Action ObjectId Value} {s : System P Value} (ha : Accounted s)
    (h : Followed s) (hspared : Spared pmDebug s action) (hlogged : Logged action) :
    Followed (exec pmDebug action s) := by
  have hdoes := exec_does pmDebug action s
  generalize exec pmDebug action s = s' at hdoes
  intro x object hx
  cases hdoes with
  | objectProps update =>
    rcases objectProps_getProps hx with hold | ⟨hsaved, rfl, rfl⟩
    · rcases h x object hold with hqueue | hrest
      · exact .inl (objectProps_queue_kept pmDebug update hqueue)
      · exact .inr hrest
    · rcases objectProps_announced hlogged hsaved with ⟨known, hknown⟩ | hnew
      · rcases h _ known hknown with hqueue | hhand | hregistered | ⟨hdropped, -⟩
        · exact .inl (objectProps_queue_kept pmDebug object hqueue)
        · exact .inr (.inl hhand)
        · exact .inr (.inr (.inl hregistered))
        · exact .inr (.inr (.inr ⟨hdropped, fun hnamed => hspared hsaved hnamed hdropped⟩))
      · exact .inl hnew
  | objectStats update =>
    have hsame := h x object (by simpa [withListener, getProps] using hx)
    simpa [withListener, InHand, dropped] using hsame
  | begun hidle => exact (h.free (.inl hidle) hx).imp_right .inr
  | nothing => exact h x object hx
  | drained hlooping hq => exact (h.free (.inr hlooping) hx).imp_right .inr
  | popped objectId rest hlooping hq =>
    rcases h.free (.inr hlooping) hx with hqueue | hrest
    · rw [hq] at hqueue
      rcases List.mem_cons.mp hqueue with rfl | hqueue
      · exact .inr (.inl (.inl rfl))
      · exact .inl hqueue
    · exact .inr (.inr hrest)
  | fetched objectId hpopped =>
    rcases h x object hx with hqueue | (hhand | ⟨props, hhand⟩) | hrest
    · exact .inl hqueue
    · obtain rfl := Progress.popped.inj (hpopped.symm.trans hhand)
      exact .inr (.inl (.inr ⟨_, rfl⟩))
    · exact absurd (hpopped.symm.trans hhand) (by simp)
    · exact .inr (.inr hrest)
  | ended objectId props exit pmda hfetched hr =>
    rw [hr.listener] at hx
    have htraced : (objectId, exit) ∈ s.trace ++ [(objectId, exit)] := by simp
    rcases h x object hx with hqueue | (hhand | ⟨props', hhand⟩) | ⟨r, hregistered⟩ | ⟨hdropped, hn⟩
    · exact .inl (by rw [hr.listener]; exact hqueue)
    · exact absurd (hfetched.symm.trans hhand) (by simp)
    · obtain ⟨rfl, rfl⟩ := Progress.fetched.inj (hfetched.symm.trans hhand)
      by_cases hregistered : ∃ r, exit = .registered r
      · obtain ⟨r, rfl⟩ := hregistered
        exact .inr (.inr (.inl ⟨r, htraced⟩))
      · refine .inr (.inr (.inr ⟨?_, fun hnamed => ?_⟩))
        · refine List.mem_filterMap.mpr ⟨(objectId, exit), htraced, ?_⟩
          cases exit with
          | registered r => exact absurd ⟨r, rfl⟩ hregistered
          | _ => rfl
        · obtain ⟨-, current, rfl, -⟩ := ha.fetched objectId props hfetched
          obtain ⟨domain, name, result, hdomain, hname, hne, hstore⟩ :=
            hspared objectId current object hfetched hx hnamed
          obtain ⟨r, hexit, -⟩ := hr.of_stored hdomain hname hne hstore
          exact hregistered ⟨r, hexit⟩
    · exact .inr (.inr (.inl ⟨r, List.mem_append_left _ hregistered⟩))
    · refine .inr (.inr (.inr ⟨?_, hn⟩))
      rw [dropped, List.filterMap_append]
      exact List.mem_append_left _ hdropped

omit [ToString ObjectId] in
theorem followed_initial : Followed (initial P Value includeAutoDelete) := by
  intro x object hx
  simp [initial, Pmda.initial, start, setIncludeAutoDelete, new, getProps] at hx

/-- In a run whose steps lose nothing, every object of a name is waiting or registered whenever no
call of `begin_fetch_values` is under way. -/
theorem waiting_or_registered (hP : P.Lawful) (actions : List (Action ObjectId Value))
    (hlogged : ∀ action ∈ actions, Logged action)
    (hspared : Meets (exec pmDebug) (Spared pmDebug) actions
      (initial P Value includeAutoDelete))
    (hidle : (after P pmDebug includeAutoDelete actions).progress = .idle) (x : ObjectId)
    (object : Object ObjectId Value)
    (hx : (after P pmDebug includeAutoDelete actions).pmda.listener.getProps x = some object)
    (hnamed : Named object) :
    x ∈ (after P pmDebug includeAutoDelete actions).pmda.listener.newObjects ∨
      Registered (after P pmDebug includeAutoDelete actions) x := by
  have ha : Accounted (after P pmDebug includeAutoDelete actions) := after_accounted actions
  have hc : Cached (after P pmDebug includeAutoDelete actions) := after_cached hP actions
  have hfollowed : Followed (after P pmDebug includeAutoDelete actions) :=
    (run_invariant_of_meets (I := fun s => Accounted s ∧ Followed s) (exec pmDebug)
      (fun action s hs hC => ⟨accounted_exec action hs.1, followed_exec hs.1 hs.2 hC.1 hC.2⟩)
      actions ⟨accounted_initial, followed_initial⟩ (meets_and _ hspared hlogged)).2
  rcases hfollowed.free (.inl hidle) hx with hqueue | ⟨r, hr⟩ | ⟨-, hnameless⟩
  · exact .inl hqueue
  · obtain ⟨-, hdomain, -⟩ := ha.registered x r hr
    exact .inr ⟨r, hr, hdomain, hc.kept hr⟩
  · exact absurd hnamed hnameless

theorem logged_registerQueues {queues : List (Object Nat (QmfValue Nat))}
    (h : ∀ queue ∈ queues, ∃ text, toStringObject queue false = .ok text) :
    ∀ action ∈ registerQueues queues, Logged action := by
  intro action haction
  rcases List.mem_append.mp haction with hmem | hmem
  · obtain ⟨queue, hqueue, rfl⟩ := List.mem_map.mp hmem
    exact h queue hqueue
  · rcases List.mem_cons.mp hmem with rfl | hmem
    · trivial
    · obtain rfl := List.eq_of_mem_replicate hmem
      trivial

theorem waiting_or_registered_orders :
    1 ∈ (after (NameTable.library Nat) ⟨false, false⟩ false (registerQueues [brokerObject "queue" 1
        [("name", .string "orders")]])).pmda.listener.newObjects ∨
      Registered (after (NameTable.library Nat) ⟨false, false⟩ false (registerQueues
        [brokerObject "queue" 1 [("name", .string "orders")]])) 1 := by
  refine waiting_or_registered (NameTable.library_lawful Nat) _ ?_ ?_ rfl 1 _ rfl
    ⟨"orders", rfl, by decide⟩
  · exact logged_registerQueues fun queue hqueue => List.mem_singleton.mp hqueue ▸ ⟨_, rfl⟩
  · refine And.intro (fun _ _ => by decide) (And.intro trivial (And.intro nofun (And.intro nofun
      (And.intro ?_ (And.intro nofun trivial)))))
    intro x props current hfetched _ _
    obtain ⟨rfl, hprops⟩ := Progress.fetched.inj hfetched
    obtain rfl := Option.some.inj hprops
    exact ⟨.queue, "orders", _, rfl, rfl, by decide, rfl⟩

/-- A queue that has no name when it is first seen, and gets one later. -/
def lateName : List (Action Nat (QmfValue Nat)) :=
  registerQueues [brokerObject "queue" 1 []] ++
    [.objectProps (brokerObject "queue" 1 [("name", .string "orders")])]

/-- The named queue is neither waiting nor registered. -/
theorem late_name_lost :
    ¬ ∀ (actions : List (Action Nat (QmfValue Nat))), (∀ action ∈ actions, Logged action) →
      (after (NameTable.library Nat) ⟨false, false⟩ false actions).progress = .idle →
      ∀ x object, (after (NameTable.library Nat) ⟨false, false⟩ false
          actions).pmda.listener.getProps x = some object → Named object →
        x ∈ (after (NameTable.library Nat) ⟨false, false⟩ false
          actions).pmda.listener.newObjects ∨
        Registered (after (NameTable.library Nat) ⟨false, false⟩ false actions) x := by
  intro h
  have hlogged : ∀ action ∈ lateName, Logged action := by
    intro action haction
    rcases List.mem_append.mp haction with hmem | hmem
    · exact logged_registerQueues
        (fun queue hqueue => List.mem_singleton.mp hqueue ▸ ⟨_, rfl⟩) action hmem
    · obtain rfl := List.mem_singleton.mp hmem
      exact ⟨_, rfl⟩
  rcases h lateName hlogged rfl 1 _ rfl ⟨"orders", rfl, by decide⟩ with hqueue | ⟨r, hr, -⟩
  · exact absurd hqueue (by decide)
  · have htrace : (after (NameTable.library Nat) ⟨false, false⟩ false lateName).trace =
        [(1, .noName)] := rfl
    rw [htrace] at hr
    exact absurd (Prod.mk.inj (List.mem_singleton.mp hr)).2 (by simp)

end System

end QpidPmda.Qmf1
