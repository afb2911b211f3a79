import VirtualShell.Proofs.Run.Shared
import VirtualShell.Proofs.Session.Answers
import VirtualShell.Proofs.Tree.Seeding

/-!
# What every run preserves

Until a session has started, the store is empty.  From then on it holds a tree, and every session
stands at a canonical path; each step comes to one effect.  So whatever the effects preserve,
together with the history they make, holds after every run.
-/

namespace VirtualShell

/-! ### Effects preserve trees -/

section Effects

variable {now : Timestamp} {nodes nodes' : Contents} {cursor cursor' : String} {deeds : List Deed}

theorem Effect.tree (heffect : Effect now nodes cursor deeds nodes' cursor') (htree : nodes.Tree) :
    nodes'.Tree := by
  cases heffect with
  | idle => exact htree
  | moved hdirectory => exact htree
  | touched hdirectory => exact htree
  | kept hdirectory => exact htree
  | wrote hplant => exact htree.plant hplant
  | made hplant hfree => exact htree.plant hplant
  | deleted hprune => exact htree.prune hprune

theorem Effect.canonical (heffect : Effect now nodes cursor deeds nodes' cursor')
    (htree : nodes.Tree) (hcursor : Path.Canonical cursor) : Path.Canonical cursor' := by
  cases heffect with
  | moved hdirectory => exact htree.canonical_of_kind? hdirectory
  | deleted hprune =>
      split
      · exact htree.canonical_of_kind? (hprune.directory htree)
      · exact hcursor
  | _ => exact hcursor

theorem Effects.tree (heffects : Effects now cursor nodes deeds nodes') (htree : nodes.Tree) :
    nodes'.Tree := by
  induction heffects with
  | nil => exact htree
  | cons hfirst hrest ih => exact ih (hfirst.tree htree)

end Effects

theorem Store.holds_empty (backend : Backend) : (Store.empty backend).Holds .empty := by
  cases backend <;> rfl

theorem Store.Holds.refusing {store : Store} {nodes : Contents} (hs : store.Holds nodes)
    (on : Bool) : (store.refusing on).Holds nodes := by
  cases store <;> exact hs

namespace Shared

variable {s : Shared} {nodes : Contents}

/-! ### Steps without their output -/

theorem step_start (s : Shared) (seeded : Bool) (options : SessionOptions) :
    s.step (.start seeded options) =
      match ((Request.start seeded).perform options).play (s.scene Path.root) with
      | (.ok _, s') => { s with store := s'.store, clients := s.clients ++ [⟨s'.cursor, options⟩] }
      | (.error _, s') => { s with store := s'.store } := by
  have hresult : _ = (((Request.start seeded).perform options).play (s.scene Path.root)).1 :=
    Action.result_run _ s.medium (s.world Path.root)
  have hscene : _ = (((Request.start seeded).perform options).play (s.scene Path.root)).2 :=
    Action.scene_run _ s.medium (s.world Path.root)
  cases hrun : (((Request.start seeded).perform options).upon s.medium).run
      (s.world Path.root) with
  | mk result w =>
      cases hplay : ((Request.start seeded).perform options).play (s.scene Path.root) with
      | mk result' s' =>
          rw [hrun, hplay] at hresult hscene
          subst hresult hscene
          rw [step, request, hrun]
          cases result <;> rfl

theorem deeds_start (s : Shared) (seeded : Bool) (options : SessionOptions) :
    s.deeds (.start seeded options) =
      match (((Request.start seeded).perform options).play (s.scene Path.root)).1 with
      | .ok (.started true) => Seed.deeds s.now
      | _ => [] := by
  rw [deeds, request, Action.result_run]
  rfl

section Operate

variable {number : Nat} {client : Client} (hclient : s.clients[number]? = some client)

include hclient

theorem step_operate (operation : Operation) :
    s.step (.operate number operation) =
      { s with
        store := ((operation.perform client.options).play (s.scene client.cursor)).2.store
        clients := s.clients.set number { client with
          cursor := ((operation.perform client.options).play (s.scene client.cursor)).2.cursor } }
    := by
  have hscene := (operation.perform client.options).scene_run s.medium (s.world client.cursor)
  simp only [step, hclient, request, Request.perform]
  rw [scene, ← hscene]
  rfl

theorem deeds_operate (operation : Operation) :
    s.deeds (.operate number operation) =
      operation.deeds (s.scene client.cursor)
        ((operation.perform client.options).play (s.scene client.cursor)).1 := by
  rw [deeds, hclient]
  simp only [request, Request.perform, Action.result_run]
  rfl

end Operate

theorem result_request (s : Shared) (cursor : String) (options : SessionOptions)
    (request : Request) :
    (s.request cursor options request).1 =
      ((request.perform options).play (s.scene cursor)).1 :=
  Action.result_run (request.perform options) s.medium (s.world cursor)

/-! ### Sound states -/

/-- The store holds a tree, and every session stands at a canonical path. -/
structure Sound (s : Shared) (nodes : Contents) : Prop where
  holds : s.store.Holds nodes
  tree : nodes.Tree
  canonical {client : Client} (hclient : client ∈ s.clients) : Path.Canonical client.cursor

/-- Nobody has started yet, and nothing is stored. -/
structure Blank (s : Shared) : Prop where
  holds : s.store.Holds .empty
  nobody : s.clients = []

theorem blank_fresh (backend : Backend) (now : Timestamp) : (fresh backend now).Blank :=
  ⟨Store.holds_empty backend, rfl⟩

/-! ### One step -/

/-- A session that starts on a store with a root finds it as it is. -/
theorem Sound.step_start (hsound : s.Sound nodes) (seeded : Bool) (options : SessionOptions) :
    s.step (.start seeded options) = { s with clients := s.clients ++ [⟨Path.root, options⟩] } ∧
      s.deeds (.start seeded options) = [] := by
  obtain ⟨root, hroot⟩ :=
    Option.isSome_iff_exists.mp (Contents.isSome_find?_of_kind? hsound.tree.root)
  have hplay : ((Request.start seeded).perform options).play (s.scene Path.root) =
      (.ok (.started false), s.scene Path.root) := by
    rw [Request.play_start, show (s.scene Path.root).store = s.store from rfl,
      hsound.holds.get, hroot]
  rw [Shared.step_start, deeds_start, hplay]
  exact ⟨rfl, rfl⟩

/-- An operation of a session comes to one effect. -/
theorem Sound.step_operate (hsound : s.Sound nodes) {number : Nat} {client : Client}
    (hclient : s.clients[number]? = some client) (operation : Operation) :
    ∃ nodes' cursor', (s.step (.operate number operation)).store.Holds nodes' ∧
      Effect s.now nodes client.cursor (s.deeds (.operate number operation)) nodes' cursor' ∧
      (s.step (.operate number operation)).clients =
        s.clients.set number { client with cursor := cursor' } := by
  have hcursor := hsound.canonical (List.mem_of_getElem? hclient)
  obtain ⟨nodes', hholds, heffect⟩ := Operation.effect (s := s.scene client.cursor)
    client.options operation hsound.holds hsound.tree hcursor
  rw [Shared.step_operate hclient, deeds_operate hclient]
  exact ⟨nodes', _, hholds, heffect, rfl⟩

/-- Every step keeps a sound state sound, through one effect. -/
theorem Sound.step (hsound : s.Sound nodes) (step : Step) :
    ∃ nodes' cursor cursor', (s.step step).Sound nodes' ∧
      Effect s.now nodes cursor (s.deeds step) nodes' cursor' := by
  cases step with
  | start seeded options =>
      obtain ⟨hstep, hdeeds⟩ := hsound.step_start seeded options
      rw [hstep, hdeeds]
      refine ⟨nodes, Path.root, Path.root, ⟨hsound.holds, hsound.tree, ?_⟩, .idle⟩
      intro client hclient
      rcases List.mem_append.mp hclient with hclient | hclient
      · exact hsound.canonical hclient
      · rw [List.mem_singleton.mp hclient]
        exact .atRoot
  | operate number operation =>
      cases hclient : s.clients[number]? with
      | none =>
          rw [deeds, hclient, Shared.step, hclient]
          exact ⟨nodes, Path.root, Path.root, hsound, .idle⟩
      | some client =>
          obtain ⟨nodes', cursor', hholds, heffect, hclients⟩ :=
            hsound.step_operate hclient operation
          refine ⟨nodes', client.cursor, cursor', ⟨hholds, heffect.tree hsound.tree, ?_⟩, heffect⟩
          intro other hother
          rw [hclients] at hother
          rcases List.mem_or_eq_of_mem_set hother with hother | rfl
          · exact hsound.canonical hother
          · exact heffect.canonical hsound.tree
              (hsound.canonical (List.mem_of_getElem? hclient))
  | refuse on =>
      exact ⟨nodes, Path.root, Path.root,
        ⟨hsound.holds.refusing on, hsound.tree, hsound.canonical⟩, .idle⟩
  | change medium | tick now =>
      exact ⟨nodes, Path.root, Path.root, ⟨hsound.holds, hsound.tree, hsound.canonical⟩, .idle⟩

/-- The first successful start leaves the root alone, or the first tree. -/
theorem Blank.step (hblank : s.Blank) (step : Step) :
    (s.step step).Blank ∧ s.deeds step = [] ∨
      ∃ nodes', (s.step step).Sound nodes' ∧
        (∀ client ∈ (s.step step).clients, client.cursor = Path.root) ∧
        Effects s.now Path.root Contents.bare (s.deeds step) nodes' := by
  cases step with
  | start seeded options =>
      -- the store is empty, so the start makes its changes unless they are refused
      have hplay := Request.play_start options seeded (s.scene Path.root)
      have hnone : (s.scene Path.root).store.get Path.root = .ok none := hblank.holds.get Path.root
      rw [hnone] at hplay
      simp only [Scene.commit] at hplay
      rw [Shared.step_start, deeds_start, hplay]
      cases (s.scene Path.root).refusal with
      | some e => exact .inl ⟨⟨hblank.holds, hblank.nobody⟩, rfl⟩
      | none =>
        have hholds := hblank.holds.foldl_apply (Seed.changes seeded s.now)
        have hroot : ∀ client ∈ s.clients ++ [⟨Path.root, options⟩],
            client.cursor = Path.root := by
          intro client hclient
          rw [hblank.nobody, List.nil_append, List.mem_singleton] at hclient
          rw [hclient]
        have hcanonical : ∀ {client : Client}, client ∈ s.clients ++ [⟨Path.root, options⟩] →
            Path.Canonical client.cursor := fun hclient => hroot _ hclient ▸ .atRoot
        right
        cases seeded with
        | true =>
            have heffects := Seed.effects_tree s.now Path.root
            exact ⟨_, ⟨hholds, heffects.tree Contents.Tree.bare, hcanonical⟩, hroot, heffects⟩
        | false => exact ⟨_, ⟨hholds, Contents.Tree.bare, hcanonical⟩, hroot, .nil⟩
  | operate number operation =>
      left
      have hnobody : s.clients[number]? = none := by simp [hblank.nobody]
      rw [Shared.step, deeds, hnobody]
      exact ⟨hblank, rfl⟩
  | refuse on => exact .inl ⟨⟨hblank.holds.refusing on, hblank.nobody⟩, rfl⟩
  | change medium | tick now => exact .inl ⟨⟨hblank.holds, hblank.nobody⟩, rfl⟩

/-! ### Reading in a sound state -/

section Reading

variable (hsound : s.Sound nodes) {cursor raw path : String} (options : SessionOptions)
  (hresolve : Path.resolve raw cursor = .ok path)

include hsound hresolve

theorem Sound.request_pathExists :
    (s.request cursor options (.operate (.pathExists raw))).1 =
      .ok (.truth (nodes.find? path).isSome) := by
  have hholds : (s.scene cursor).store.Holds nodes := hsound.holds
  rw [result_request, Request.perform, Operation.perform, Action.play_bind,
    Session.play_pathExists hholds hresolve]
  rfl

theorem Sound.request_fileText :
    (s.request cursor options (.operate (.fileText raw))).1 =
      .ok (.content ((nodes.find? path).bind Node.content?)) := by
  have hholds : (s.scene cursor).store.Holds nodes := hsound.holds
  rw [result_request, Request.perform, Operation.perform, Action.play_bind,
    Session.play_fileText hholds hresolve]
  rfl

theorem Sound.request_listDirectory (hdirectory : nodes.kind? path = some .directory) :
    (s.request cursor options (.operate (.listDirectory raw))).1 =
      .ok (.listing (some (nodes.listing path (nodes.names path)))) := by
  have hholds : (s.scene cursor).store.Holds nodes := hsound.holds
  rw [result_request, Request.perform, Operation.perform, Action.play_bind,
    Session.play_listDirectory hholds hresolve hdirectory]
  rfl

end Reading

/-! ### Whole runs -/

/-- A property of contents and the history that made them is preserved by every effect. -/
def Preserved (P : Contents → List Deed → Prop) : Prop :=
  ∀ {now : Timestamp} {nodes : Contents} {cursor : String} {deeds : List Deed}
    {nodes' : Contents} {cursor' : String} {earlier : List Deed}, nodes.Tree →
    Effect now nodes cursor deeds nodes' cursor' → P nodes earlier → P nodes' (earlier ++ deeds)

section Induction

variable {P : Contents → List Deed → Prop} (hP : Preserved P)

include hP

theorem Preserved.effects {now : Timestamp} {cursor : String} {nodes nodes' : Contents}
    {deeds earlier : List Deed} (heffects : Effects now cursor nodes deeds nodes')
    (htree : nodes.Tree) (hearlier : P nodes earlier) : P nodes' (earlier ++ deeds) := by
  induction heffects generalizing earlier with
  | nil => rwa [List.append_nil]
  | cons hfirst hrest ih =>
      rw [← List.append_assoc]
      exact ih (hfirst.tree htree) (hP htree hfirst hearlier)

theorem Preserved.run_of_sound {s : Shared} {nodes : Contents} {earlier : List Deed}
    (hsound : s.Sound nodes) (hearlier : P nodes earlier) (steps : List Step) :
    ∃ nodes', (s.run steps).Sound nodes' ∧ P nodes' (earlier ++ s.history steps) := by
  induction steps generalizing s nodes earlier with
  | nil => exact ⟨nodes, hsound, by rwa [history, List.append_nil]⟩
  | cons step steps ih =>
      obtain ⟨nodes', cursor, cursor', hsound', heffect⟩ := hsound.step step
      rw [history, ← List.append_assoc]
      exact ih hsound' (hP hsound.tree heffect hearlier)

theorem Preserved.run_of_blank (hbare : P .bare []) {s : Shared} (hblank : s.Blank)
    (steps : List Step) :
    (s.run steps).Blank ∧ s.history steps = [] ∨
      ∃ nodes, (s.run steps).Sound nodes ∧ P nodes (s.history steps) := by
  induction steps generalizing s with
  | nil => exact .inl ⟨hblank, rfl⟩
  | cons step steps ih =>
      rw [history]
      rcases hblank.step step with ⟨hblank', hdeeds⟩ | ⟨nodes', hsound', -, heffects⟩
      · rw [hdeeds, List.nil_append]
        exact ih hblank'
      · exact .inr (hP.run_of_sound hsound' (hP.effects heffects .bare hbare) steps)

/-- What holds of the root alone and is preserved by every effect holds whenever somebody has
started. -/
theorem Preserved.run (hbare : P .bare []) (backend : Backend) (now : Timestamp)
    {steps : List Step} (hstarted : ((fresh backend now).run steps).clients ≠ []) :
    ∃ nodes, ((fresh backend now).run steps).Sound nodes ∧
      P nodes ((fresh backend now).history steps) := by
  rcases hP.run_of_blank hbare (blank_fresh backend now) steps with ⟨hblank, -⟩ | hsound
  · exact absurd hblank.nobody hstarted
  · exact hsound

end Induction

/-- Once somebody has started, the store holds a tree. -/
theorem sound_run (backend : Backend) (now : Timestamp) {steps : List Step}
    (hstarted : ((fresh backend now).run steps).clients ≠ []) :
    ∃ nodes, ((fresh backend now).run steps).Sound nodes := by
  have hP : Preserved fun _ _ => True := fun _ _ _ => trivial
  obtain ⟨nodes, hsound, -⟩ := hP.run trivial backend now hstarted
  exact ⟨nodes, hsound⟩

end Shared
end VirtualShell
