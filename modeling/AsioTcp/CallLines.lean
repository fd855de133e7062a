import AsioTcp.LifeCycle
import AsioTcp.ServerEffect

/-!
# The calls of `LifeCycle`, line by line

`start` and `stop` of `LifeCycle` do with the acceptor and the threads what the
lines of `Server` do when they are taken one after the other (`lines_start`,
`lines_stop`). Which threads these are, `Server` does not say.
-/

namespace AsioTcp.LifeCycle

open Server (StartPoint StopPoint Disconnect)

/-- The line of `Server` that has this line in it. -/
def StartLine.point : StartLine → StartPoint
  | .openAcceptor => .acceptor
  | .setOption | .bind | .listen | .outputConsole => .listen
  | .startAccept => .startAccept
  | .resize => .resize
  | .spawn i => .spawn i

/-- The lines of one call, with nothing in between. -/
inductive Lines {Point : Type} (name : Point → Server.Call)
    (next : Point → Server.ServerTcp → Option (Server.ServerTcp × Multiset Server.Call)) :
    Point → Server.ServerTcp → Server.ServerTcp → Prop
  | ends {point : Point} {s t : Server.ServerTcp} :
      next point s = some (t, 0) → Lines name next point s t
  | goes {point point' : Point} {s t u : Server.ServerTcp} {calls : Multiset Server.Call} :
      next point s = some (t, calls) → name point' ∈ calls → Lines name next point' t u →
      Lines name next point s u

/-- `start` goes by `fault`. -/
def startNext (fault : Option StartLine) (point : StartPoint) (s : Server.ServerTcp) :
    Option (Server.ServerTcp × Multiset Server.Call) :=
  Server.startNext s point (if fault.map StartLine.point = some point then .throws else .go)

abbrev StartLines (fault : Option StartLine) := Lines Server.Call.start (startNext fault)

/-- The two models agree on the acceptor and on the threads that
`io_thread_array_` points to, which run. -/
structure Live (s : ServerTcp) (t : Server.ServerTcp) : Prop where
  num : t.ioThreadNum = s.ioThreadNum
  acceptor : t.acceptorOpen = s.acceptorOpen
  array : t.ioThreadArray = s.ioThreadArray.map Option.isSome
  running : t.ioThreadArray.count true ≤ t.running
  terminated : t.terminated = false

theorem Live.enterPhase {s : ServerTcp} {t : Server.ServerTcp} (h : Live s t)
    (phase : Server.Phase) : Live s (t.enterPhase phase) :=
  ⟨h.num, h.acceptor, h.array, h.running, h.terminated⟩

theorem startNext_go {fault : Option StartLine} {point : StartPoint}
    (h : fault.map StartLine.point ≠ some point) (s : Server.ServerTcp) :
    startNext fault point s = Server.startNext s point .go := by
  unfold startNext
  rw [if_neg h]

theorem startNext_throws {fault : Option StartLine} {point : StartPoint}
    (h : fault.map StartLine.point = some point) (hreset : point ≠ .reset)
    (s : Server.ServerTcp) : startNext fault point s = some (s.enterPhase .started, 0) := by
  unfold startNext
  rw [if_pos h]
  cases point with
  | reset => exact absurd rfl hreset
  | _ => rfl

/-- A line throws, or the call goes on with the next one. -/
theorem lines_or {fault : Option StartLine} {point next : StartPoint} {s : ServerTcp}
    {t t' : Server.ServerTcp} {calls : Multiset Server.Call} {rest : ServerTcp × Ended}
    (h : Live s t) (hreset : point ≠ .reset)
    (hgo : Server.startNext t point .go = some (t', calls)) (hnext : .start next ∈ calls)
    (hrest : ∃ u, StartLines fault next t' u ∧ Live rest.1 u) :
    ∃ u, StartLines fault point t u ∧
      Live (if fault.map StartLine.point = some point then (s, .threw) else rest).1 u := by
  split
  · rename_i hfault
    exact ⟨_, .ends (startNext_throws hfault hreset t), h.enterPhase .started⟩
  · rename_i hfault
    obtain ⟨u, hlines, hu⟩ := hrest
    exact ⟨u, .goes ((startNext_go hfault t).trans hgo) hnext hlines, hu⟩

theorem point_spawn {fault : Option StartLine} {i : Nat} :
    fault.map StartLine.point = some (.spawn i) ↔ fault = some (.spawn i) := by
  obtain _ | line := fault
  · exact iff_of_false (fun h => nomatch h) (fun h => nomatch h)
  · cases line <;> simp [StartLine.point]

theorem count_set_le (array : List Bool) (i : Nat) (b : Bool) :
    (array.set i b).count true ≤ array.count true + 1 := by
  by_cases hi : i < array.length
  · rw [List.count_set hi]
    split <;> split <;> omega
  · rw [List.set_eq_of_length_le (Nat.le_of_not_lt hi)]
    exact Nat.le_succ _

/-- The loop of `start`, from round `i` on. -/
theorem lines_spawn {fault : Option StartLine} {i k : Nat} {s : ServerTcp} {t : Server.ServerTcp}
    (h : Live s t) (hk : i + k = s.ioThreadNum.toNat) :
    ∃ u, StartLines fault (.spawn i) t u ∧ Live (spawnLoop fault i k s).1 u := by
  induction k generalizing i s t with
  | zero =>
    have hend : startNext fault (.spawn i) t = some (t.enterPhase .started, 0) := by
      by_cases hfault : fault.map StartLine.point = some (.spawn i)
      · exact startNext_throws hfault (fun h => nomatch h) t
      · rw [startNext_go hfault]
        exact if_neg (by rw [h.num]; omega)
    exact ⟨_, .ends hend, h.enterPhase .started⟩
  | succ k ih =>
    let t' : Server.ServerTcp :=
      { t with ioThreadArray := t.ioThreadArray.set i true, running := t.running + 1 }
    have hgo : Server.startNext t (.spawn i) .go = some (t', {.start (.spawn (i + 1))}) :=
      if_pos (by rw [h.num]; omega)
    have hlive : Live (s.spawn i) t' := by
      refine ⟨h.num, h.acceptor, ?_, (count_set_le _ i true).trans ?_, h.terminated⟩
      · show t.ioThreadArray.set i true = (s.ioThreadArray.set i (some s.created)).map Option.isSome
        rw [h.array, List.map_set]
        rfl
      · exact Nat.add_le_add_right h.running 1
    have hrest := ih (i := i + 1) hlive (by show _ = s.ioThreadNum.toNat; omega)
    unfold spawnLoop
    simp only [← point_spawn]
    exact lines_or h (by simp) hgo (Multiset.mem_singleton_self _) hrest

/-- `start`, with its lines grouped as in `Server`. -/
theorem start_eq (fault : Option StartLine) {s : ServerTcp} (hclosed : s.acceptorOpen = false) :
    start fault s =
      if fault.map StartLine.point = some .acceptor then (s, .threw) else
      if fault.map StartLine.point = some .listen then (s.setAcceptor true, .threw) else
      if fault.map StartLine.point = some .startAccept then (s.setAcceptor true, .threw) else
      if fault.map StartLine.point = some .resize then (s.setAcceptor true, .threw) else
      spawnLoop fault 0 s.ioThreadNum.toNat (s.setAcceptor true).resize := by
  obtain _ | line := fault
  · simp [start, hclosed, ServerTcp.setAcceptor]
  · cases line <;> simp [start, hclosed, ServerTcp.setAcceptor, StartLine.point]

/-- **`start`** does the same in both models. -/
theorem lines_start (fault : Option StartLine) {s : ServerTcp} {t : Server.ServerTcp}
    (h : Live s t) : ∃ u, StartLines fault .reset t u ∧ Live (start fault s).1 u := by
  let t₀ : Server.ServerTcp := { t with stopped := false }
  have h₀ : Live s t₀ := ⟨h.num, h.acceptor, h.array, h.running, h.terminated⟩
  suffices hacceptor : ∃ u, StartLines fault .acceptor t₀ u ∧ Live (start fault s).1 u by
    obtain ⟨u, hlines, hu⟩ := hacceptor
    refine ⟨u, .goes ?_ (Multiset.mem_singleton_self _) hlines, hu⟩
    unfold startNext
    split <;> rfl
  cases hopen : s.acceptorOpen with
  | true =>
    rw [start_threw (Or.inl hopen)]
    refine ⟨t₀.enterPhase .started, .ends ?_, h₀.enterPhase .started⟩
    by_cases hfault : fault.map StartLine.point = some .acceptor
    · exact startNext_throws hfault (fun h => nomatch h) t₀
    · rw [startNext_go hfault]
      exact if_pos (h.acceptor.trans hopen)
  | false =>
    let t₁ : Server.ServerTcp := { t₀ with acceptorOpen := true }
    have h₁ : Live (s.setAcceptor true) t₁ := ⟨h.num, rfl, h.array, h.running, h.terminated⟩
    have hgo : Server.startNext t₀ .acceptor .go = some (t₁, {.start .listen}) :=
      if_neg (by rw [h₀.acceptor, hopen]; decide)
    let r := t₁.resetId.startAccept
    have h₂ : Live (s.setAcceptor true) r.1 := ⟨h.num, rfl, h.array, h.running, h.terminated⟩
    let n := r.1.ioThreadNum.toNat
    let t₃ : Server.ServerTcp :=
      { r.1 with ioThreadArray := (r.1.ioThreadArray ++ List.replicate n false).take n }
    have h₃ : Live (s.setAcceptor true).resize t₃ := by
      refine ⟨h.num, rfl, ?_, ?_, h.terminated⟩
      · show (t.ioThreadArray ++ List.replicate t.ioThreadNum.toNat false).take
          t.ioThreadNum.toNat = _
        rw [h.array, h.num]
        simp [ServerTcp.resize, ServerTcp.setAcceptor]
      · show ((t.ioThreadArray ++ List.replicate t.ioThreadNum.toNat false).take
          t.ioThreadNum.toNat).count true ≤ t.running
        refine ((List.take_sublist _ _).count_le true).trans ?_
        simpa [List.count_replicate] using h.running
    rw [start_eq fault hopen]
    apply lines_or h₀ (by simp) hgo (Multiset.mem_singleton_self _)
    apply lines_or h₁ (by simp) rfl (Multiset.mem_singleton_self _)
    apply lines_or h₁ (by simp) rfl (Multiset.mem_cons_self _ _)
    apply lines_or h₂ (by simp) rfl (Multiset.mem_singleton_self _)
    exact lines_spawn h₃ (Nat.zero_add _)

/-- No thread is in a handler while `stop` joins them. -/
def stopNext (f : Nat → Disconnect) (point : StopPoint) (s : Server.ServerTcp) :
    Option (Server.ServerTcp × Multiset Server.Call) :=
  Server.stopNext s 0 point (.disconnects f)

abbrev StopLines (f : Nat → Disconnect) := Lines Server.Call.stop (stopNext f)

theorem disconnect_threw (f : Nat → Disconnect) (sids : List Nat) (t : Server.ServerTcp) :
    (Server.ServerTcp.disconnect f sids t).2 = sids.any fun sid => f sid = .threw := by
  induction sids generalizing t with
  | nil => rfl
  | cons sid rest ih =>
    unfold Server.ServerTcp.disconnect
    cases hf : f sid <;> simp [hf, ih]

theorem stopNext_disconnect (f : Nat → Disconnect) (t : Server.ServerTcp) :
    stopNext f .disconnect t =
      if (Server.ServerTcp.disconnect f t.connectionList t).2 then
        some ((Server.ServerTcp.disconnect f t.connectionList t).1.enterPhase .stopped, 0)
      else some ((Server.ServerTcp.disconnect f t.connectionList t).1, {.stop .iosStop}) := by
  simp only [stopNext, Server.stopNext]
  split <;> rename_i hpair <;> rw [hpair] <;> rfl

/-- `stop` ends in the same way in both models. -/
structure Ends (r : ServerTcp × Ended) (u : Server.ServerTcp) : Prop where
  live : r.2 ≠ .crashed → Live r.1 u
  crashed : r.2 = .crashed → u.terminated = true

/-- The loop of `stop`, from round `i` on. -/
theorem lines_join {f : Nat → Disconnect} {i k : Nat} {s : ServerTcp} {t : Server.ServerTcp}
    (h : Live s t) (hk : i + k = s.ioThreadNum.toNat) :
    ∃ u, StopLines f (.join i) t u ∧ Ends (joinEnd (joinLoop i k s)) u := by
  induction k generalizing i s t with
  | zero =>
    let t' : Server.ServerTcp := { t with ioThreadArray := [] }
    have hgo : stopNext f (.join i) t = some (t', {.stop .clearBuffer}) :=
      if_neg (by rw [h.num]; omega)
    refine ⟨_, .goes hgo (Multiset.mem_singleton_self _) (.ends rfl), fun _ => ?_,
      fun h => nomatch h⟩
    exact ⟨h.num, h.acceptor, rfl, Nat.zero_le _, h.terminated⟩
  | succ k ih =>
    have hi : i < t.ioThreadNum.toNat := by rw [h.num]; omega
    have hget : t.ioThreadArray[i]? = s.ioThreadArray[i]?.map Option.isSome := by
      rw [h.array, List.getElem?_map]
    unfold joinLoop
    split
    · rename_i thread hthread
      rw [hthread] at hget
      have hmem : true ∈ t.ioThreadArray := List.mem_of_getElem? hget
      have hcount : 0 < t.running := (List.count_pos_iff.mpr hmem).trans_le h.running
      let t' : Server.ServerTcp :=
        { t with ioThreadArray := t.ioThreadArray.set i false, running := t.running - 1 }
      have hgo : stopNext f (.join i) t = some (t', {.stop (.join (i + 1))}) := by
        unfold stopNext Server.stopNext
        simp only [hget, Option.map_some, Option.isSome_some]
        rw [if_pos hi, if_pos (by simpa using hcount)]
      have hset : t'.ioThreadArray = (s.join i thread).ioThreadArray.map Option.isSome := by
        show t.ioThreadArray.set i false = (s.ioThreadArray.set i none).map Option.isSome
        rw [h.array, List.map_set]
        rfl
      have hlen : i < t.ioThreadArray.length := (List.getElem?_eq_some_iff.mp hget).1
      have hrunning : t'.ioThreadArray.count true ≤ t'.running := by
        have hle := h.running
        show (t.ioThreadArray.set i false).count true ≤ t.running - 1
        rw [List.count_set hlen]
        simp [(List.getElem?_eq_some_iff.mp hget).2]
        omega
      have hlive : Live (s.join i thread) t' := ⟨h.num, h.acceptor, hset, hrunning, h.terminated⟩
      obtain ⟨u, hlines, hu⟩ := ih (i := i + 1) hlive (by show _ = s.ioThreadNum.toNat; omega)
      exact ⟨u, .goes hgo (Multiset.mem_singleton_self _) hlines, hu⟩
    · rename_i hnone
      have hend : stopNext f (.join i) t = some (t.terminate, 0) := by
        unfold stopNext Server.stopNext
        simp only [if_pos hi]
        split
        · rename_i htrue
          rw [hget] at htrue
          obtain ⟨thread?, hthread, hsome⟩ := Option.map_eq_some_iff.mp htrue
          obtain ⟨thread, rfl⟩ := Option.isSome_iff_exists.mp hsome
          exact absurd hthread (hnone thread)
        · rfl
      exact ⟨_, .ends hend, fun hne => absurd rfl hne, fun _ => rfl⟩

/-- **`stop`** does the same in both models. -/
theorem lines_stop (f : Nat → Disconnect) {s : ServerTcp} {t : Server.ServerTcp}
    (h : Live s t) :
    ∃ u, StopLines f .cancel t u ∧
      Ends (stop (t.connectionList.any fun sid => f sid = .threw) s) u := by
  unfold stop
  cases hopen : s.acceptorOpen with
  | false =>
    have hend : stopNext f .cancel t = some (t.enterPhase .stopped, 0) :=
      if_neg (by rw [h.acceptor, hopen]; decide)
    refine ⟨_, .ends hend, fun _ => h.enterPhase .stopped, fun hcrashed => ?_⟩
    cases hcrashed
  | true =>
    let t₁ := t.cancelAccepts.1
    have hcancel : stopNext f .cancel t = some (t₁, .stop .close ::ₘ t.cancelAccepts.2) :=
      if_pos (h.acceptor.trans hopen)
    let t₂ : Server.ServerTcp := { t₁.cancelAccepts.1 with acceptorOpen := false }
    let r := Server.ServerTcp.disconnect f t.connectionList t₂
    have hr := Server.disconnect_spec f t.connectionList t₂
    have hsame : r.1 = { t₂ with connectionList := r.1.connectionList, clients := r.1.clients } :=
      hr.same
    have hthrew : r.2 = t.connectionList.any fun sid => f sid = .threw :=
      disconnect_threw f t.connectionList t₂
    suffices hrest : ∃ u, StopLines f .disconnect t₂ u ∧ Ends
        (if r.2 then (s.setAcceptor false, .threw)
          else joinEnd (joinLoop 0 (s.setAcceptor false).ioThreadNum.toNat (s.setAcceptor false)))
        u by
      obtain ⟨u, hlines, hu⟩ := hrest
      rw [hthrew] at hu
      exact ⟨u, .goes hcancel (Multiset.mem_cons_self _ _)
        (.goes rfl (Multiset.mem_cons_self _ _) hlines), hu⟩
    have hlive : Live (s.setAcceptor false) r.1 := by
      rw [hsame]
      exact ⟨h.num, rfl, h.array, h.running, h.terminated⟩
    cases hflag : r.2 with
    | true =>
      have hend : stopNext f .disconnect t₂ = some (r.1.enterPhase .stopped, 0) := by
        rw [stopNext_disconnect]
        exact if_pos hflag
      refine ⟨_, .ends hend, fun _ => hlive.enterPhase .stopped, fun hcrashed => ?_⟩
      cases hcrashed
    | false =>
      have hgo : stopNext f .disconnect t₂ = some (r.1, {.stop .iosStop}) := by
        rw [stopNext_disconnect]
        exact if_neg (Bool.not_eq_true _ ▸ hflag)
      let t₃ : Server.ServerTcp := { r.1 with stopped := true }
      have h₃ : Live (s.setAcceptor false) t₃ :=
        ⟨hlive.num, hlive.acceptor, hlive.array, hlive.running, hlive.terminated⟩
      obtain ⟨u, hlines, hu⟩ := lines_join (f := f) h₃ (Nat.zero_add _)
      exact ⟨u, .goes hgo (Multiset.mem_singleton_self _)
        (.goes rfl (Multiset.mem_singleton_self _) hlines), hu⟩

end AsioTcp.LifeCycle
