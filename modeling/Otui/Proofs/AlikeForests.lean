import Otui.Tree

/-!
# Forests of the same shape

Reading a document that was written gives the widgets that were written: a forest of the same shape,
whose labels have to do with the labels before. `Alike R` is this relation between forests, for a
relation `R` between their labels. Most of what is said of two forests is said of two labels
first, and `Alike` carries it through.
-/

namespace Otui.Tree

variable {β γ δ σ : Type}

/-- Forests of the same shape with related labels. -/
inductive Alike (R : β → γ → Prop) : List (Tree β) → List (Tree γ) → Prop where
  /-- No trees. -/
  | nil : Alike R [] []
  /-- The labels on top, all below, and the other trees. -/
  | cons {b : β} {c : γ} {bs ts : List (Tree β)} {cs us : List (Tree γ)} :
    R b c → Alike R bs cs → Alike R ts us → Alike R (.node b bs :: ts) (.node c cs :: us)

/-- The labels of a forest, depth first. -/
def forestLabels (ts : List (Tree β)) : List β := (forestNodes ts).map label

@[simp] theorem forestLabels_nil : forestLabels ([] : List (Tree β)) = [] := rfl

@[simp] theorem forestLabels_cons (b : β) (bs ts : List (Tree β)) :
    forestLabels (.node b bs :: ts) = b :: (forestLabels bs ++ forestLabels ts) := by
  simp [forestLabels, forestNodes, nodes]

@[simp] theorem forestLabels_append (ts us : List (Tree β)) :
    forestLabels (ts ++ us) = forestLabels ts ++ forestLabels us := by
  simp [forestLabels, forestNodes_append]

/-- What holds of no trees, and of a tree and others when it holds of all below the tree and of the
others, holds of all forests. -/
@[elab_as_elim]
theorem forest_induction {motive : List (Tree β) → Prop} (nil : motive [])
    (cons : ∀ b bs ts, motive bs → motive ts → motive (.node b bs :: ts)) :
    ∀ ts, motive ts
  | [] => nil
  | .node b bs :: ts => cons b bs ts (forest_induction nil cons bs) (forest_induction nil cons ts)

/-- Of a node and those below and beside it. -/
theorem mem_forestNodes_cons {t u : Tree β} {ts : List (Tree β)} :
    t ∈ forestNodes (u :: ts) ↔ t = u ∨ t ∈ forestNodes u.children ∨ t ∈ forestNodes ts := by
  rw [forestNodes, nodes_eq, List.cons_append, List.mem_cons, List.mem_append]

theorem label_mem_forestLabels {t : Tree β} {ts : List (Tree β)} (h : t ∈ forestNodes ts) :
    t.label ∈ forestLabels ts :=
  List.mem_map.2 ⟨t, h, rfl⟩

/-- Everything below a tree of a forest is in the forest. -/
theorem mem_forestLabels_of_children {t : Tree β} {ts : List (Tree β)} (h : t ∈ forestNodes ts) :
    ∀ b ∈ forestLabels t.children, b ∈ forestLabels ts := by
  induction ts using forest_induction with
  | nil => cases h
  | cons c bs ts ihb iht =>
    intro b hb
    rw [forestLabels_cons, List.mem_cons, List.mem_append]
    rcases mem_forestNodes_cons.1 h with rfl | h | h
    · exact .inr (.inl hb)
    · exact .inr (.inl (ihb h b hb))
    · exact .inr (.inr (iht h b hb))

theorem forestMap_nodeCons (f : β → γ) (b : β) (bs ts : List (Tree β)) :
    forestMap f (.node b bs :: ts) = .node (f b) (forestMap f bs) :: forestMap f ts := by
  simp [forestMap, map]

@[simp] theorem forestLabels_forestMap (f : β → γ) (ts : List (Tree β)) :
    forestLabels (forestMap f ts) = (forestLabels ts).map f := by
  induction ts using forest_induction with
  | nil => rfl
  | cons b bs ts ihb iht => simp [forestMap_nodeCons, ihb, iht]

theorem forestMap_id (ts : List (Tree β)) : forestMap id ts = ts := by
  induction ts using forest_induction with
  | nil => rfl
  | cons b bs ts ihb iht => rw [forestMap_nodeCons, ihb, iht, id]

theorem forestMapState_nodeCons (f : β → σ → γ × σ) (b : β) (bs ts : List (Tree β)) (s : σ) :
    forestMapState f (.node b bs :: ts) s
      = (.node (f b s).1 (forestMapState f bs (f b s).2).1
          :: (forestMapState f ts (forestMapState f bs (f b s).2).2).1,
        (forestMapState f ts (forestMapState f bs (f b s).2).2).2) := by
  simp [forestMapState, mapState]

mutual

/-- A tree and all trees below it, depth first, each with the labels above it, the nearest first. -/
def paths : List β → Tree β → List (List β × Tree β)
  | up, .node b bs => (up, .node b bs) :: forestPaths (b :: up) bs

/-- The trees of a forest and all trees below them, each with the labels above it. -/
def forestPaths : List β → List (Tree β) → List (List β × Tree β)
  | _, [] => []
  | up, t :: ts => paths up t ++ forestPaths up ts

end

theorem mem_forestPaths_cons {up above : List β} {b : β} {bs ts : List (Tree β)} {t : Tree β} :
    (above, t) ∈ forestPaths up (.node b bs :: ts)
      ↔ above = up ∧ t = .node b bs ∨ (above, t) ∈ forestPaths (b :: up) bs
        ∨ (above, t) ∈ forestPaths up ts := by
  rw [forestPaths, paths, List.cons_append, List.mem_cons, List.mem_append, Prod.mk.injEq]

/-- Every tree below a forest is found with what is above it. -/
theorem map_snd_forestPaths (up : List β) (ts : List (Tree β)) :
    (forestPaths up ts).map Prod.snd = forestNodes ts := by
  induction ts using forest_induction generalizing up with
  | nil => rfl
  | cons b bs ts ihb iht =>
    rw [forestPaths, paths, List.cons_append, List.map_cons, List.map_append, ihb, iht, forestNodes,
      nodes]
    rfl

/-- A label on the way to a tree stands in the forest, or above it. -/
theorem mem_of_mem_forestPaths {up above : List β} {ts : List (Tree β)} {t : Tree β}
    (h : (above, t) ∈ forestPaths up ts) :
    ∀ b ∈ t.label :: above, b ∈ up ∨ b ∈ forestLabels ts := by
  induction ts using forest_induction generalizing up with
  | nil => cases h
  | cons b bs ts ihb iht =>
    intro c hc
    rw [forestLabels_cons, List.mem_cons, List.mem_append]
    rcases mem_forestPaths_cons.1 h with ⟨rfl, rfl⟩ | h | h
    · rcases List.mem_cons.1 hc with rfl | hc
      · exact .inr (.inl rfl)
      · exact .inl hc
    · rcases ihb h c hc with hc | hc
      · exact (List.mem_cons.1 hc).elim (fun hc => .inr (.inl hc)) .inl
      · exact .inr (.inr (.inl hc))
    · exact (iht h c hc).imp_right fun hc => .inr (.inr hc)

/-- What is above a tree of a forest ends with what is above the forest. -/
theorem suffix_of_mem_forestPaths {up above : List β} {ts : List (Tree β)} {t : Tree β}
    (h : (above, t) ∈ forestPaths up ts) : up <:+ above := by
  induction ts using forest_induction generalizing up with
  | nil => cases h
  | cons b bs ts ihb iht =>
    rcases mem_forestPaths_cons.1 h with ⟨rfl, -⟩ | h | h
    · exact List.suffix_refl _
    · exact (List.suffix_cons b up).trans (ihb h)
    · exact iht h

/-- What is above the forest is above everything in it. -/
theorem subset_of_mem_forestPaths {up above : List β} {ts : List (Tree β)} {t : Tree β}
    (h : (above, t) ∈ forestPaths up ts) : up ⊆ above :=
  (suffix_of_mem_forestPaths h).subset

mutual

/-- Changes every label of a tree by what it is and the labels above it, the nearest first. -/
def mapBelow (f : List β → β → γ) : List β → Tree β → Tree γ
  | up, .node b bs => .node (f up b) (forestMapBelow f (b :: up) bs)

/-- Changes every label of a list of trees by what it is and the labels above it. -/
def forestMapBelow (f : List β → β → γ) : List β → List (Tree β) → List (Tree γ)
  | _, [] => []
  | up, t :: ts => mapBelow f up t :: forestMapBelow f up ts

end

section forestMapBelow

variable {f g : List β → β → γ}

theorem forestMapBelow_nodeCons (f : List β → β → γ) (up : List β) (b : β) (bs ts : List (Tree β)) :
    forestMapBelow f up (.node b bs :: ts)
      = .node (f up b) (forestMapBelow f (b :: up) bs) :: forestMapBelow f up ts := by
  rw [forestMapBelow, mapBelow]

@[simp] theorem length_forestMapBelow (f : List β → β → γ) (up : List β) (ts : List (Tree β)) :
    (forestMapBelow f up ts).length = ts.length := by
  induction ts with
  | nil => rfl
  | cons t ts ih => rw [forestMapBelow, List.length_cons, List.length_cons, ih]

/-- The labels of a changed forest come from the trees of the forest, with what is above them. -/
theorem forestLabels_forestMapBelow (f : List β → β → γ) (up : List β) (ts : List (Tree β)) :
    forestLabels (forestMapBelow f up ts) = (forestPaths up ts).map fun p => f p.1 p.2.label := by
  induction ts using forest_induction generalizing up with
  | nil => rfl
  | cons b bs ts ihb iht =>
    rw [forestMapBelow_nodeCons, forestLabels_cons, ihb, iht, forestPaths, paths, List.cons_append,
      List.map_cons, List.map_append, label_node]

theorem forestMapBelow_congr {up : List β} {ts : List (Tree β)}
    (h : ∀ p ∈ forestPaths up ts, f p.1 p.2.label = g p.1 p.2.label) :
    forestMapBelow f up ts = forestMapBelow g up ts := by
  induction ts using forest_induction generalizing up with
  | nil => rfl
  | cons b bs ts ihb iht =>
    simp only [Prod.forall, mem_forestPaths_cons] at h
    have hb : f up b = g up b := h up (.node b bs) (.inl ⟨rfl, rfl⟩)
    rw [forestMapBelow_nodeCons, forestMapBelow_nodeCons, hb,
      ihb fun p hp => h p.1 p.2 (.inr (.inl hp)), iht fun p hp => h p.1 p.2 (.inr (.inr hp))]

/-- A second change sees what is above a label before the first. -/
theorem forestMap_forestMapBelow (h : γ → δ) (f : List β → β → γ) (up : List β)
    (ts : List (Tree β)) :
    forestMap h (forestMapBelow f up ts) = forestMapBelow (fun up b => h (f up b)) up ts := by
  induction ts using forest_induction generalizing up with
  | nil => rfl
  | cons b bs ts ihb iht =>
    rw [forestMapBelow_nodeCons, forestMap_nodeCons, ihb, iht, forestMapBelow_nodeCons]

/-- A change that does not look at what is above. -/
theorem forestMapBelow_const (f : β → γ) (up : List β) (ts : List (Tree β)) :
    forestMapBelow (fun _ => f) up ts = forestMap f ts := by
  induction ts using forest_induction generalizing up with
  | nil => rfl
  | cons b bs ts ihb iht => rw [forestMapBelow_nodeCons, ihb, iht, forestMap_nodeCons]

end forestMapBelow

namespace Alike

variable {R : β → γ → Prop} {ts ts' : List (Tree β)} {us us' : List (Tree γ)}

theorem eq_nil (h : Alike R [] us) : us = [] := by
  cases h
  rfl

/-- A relation may be replaced where it holds between labels of the two forests. -/
theorem imp_of_mem {Q : β → γ → Prop} (h : Alike R ts us)
    (hq : ∀ b ∈ forestLabels ts, ∀ c ∈ forestLabels us, R b c → Q b c) : Alike Q ts us := by
  induction h with
  | nil => exact .nil
  | cons hr hbs hts ihb iht =>
    simp only [forestLabels_cons, List.mem_cons, List.mem_append] at hq
    refine .cons (hq _ (.inl rfl) _ (.inl rfl) hr) (ihb fun b hb c hc => ?_)
      (iht fun b hb c hc => ?_)
    · exact hq b (.inr (.inl hb)) c (.inr (.inl hc))
    · exact hq b (.inr (.inr hb)) c (.inr (.inr hc))

theorem imp {Q : β → γ → Prop} (h : Alike R ts us) (hq : ∀ b c, R b c → Q b c) : Alike Q ts us :=
  h.imp_of_mem fun b _ c _ => hq b c

/-- Forests that are like one forest are like each other. -/
theorem comp {Q : γ → δ → Prop} (h : Alike R ts us) {vs : List (Tree δ)} (h' : Alike Q us vs) :
    Alike (fun b d => ∃ c, R b c ∧ Q c d) ts vs := by
  induction h generalizing vs with
  | nil =>
    cases h'
    exact .nil
  | cons hr _ _ ihb iht =>
    cases h' with
    | cons hq hbs hts => exact .cons ⟨_, hr, hq⟩ (ihb hbs) (iht hts)

/-- Every label on the right has one on the left. -/
theorem exists_left (h : Alike R ts us) : ∀ c ∈ forestLabels us, ∃ b ∈ forestLabels ts, R b c := by
  induction h with
  | nil => intro c hc; cases hc
  | cons hr hbs hts ihb iht =>
    intro c hc
    simp only [forestLabels_cons, List.mem_cons, List.mem_append] at hc ⊢
    rcases hc with rfl | hc | hc
    · exact ⟨_, .inl rfl, hr⟩
    · obtain ⟨b, hb, hrb⟩ := ihb c hc
      exact ⟨b, .inr (.inl hb), hrb⟩
    · obtain ⟨b, hb, hrb⟩ := iht c hc
      exact ⟨b, .inr (.inr hb), hrb⟩

/-- Every label on the left has one on the right. -/
theorem exists_right (h : Alike R ts us) : ∀ b ∈ forestLabels ts, ∃ c ∈ forestLabels us, R b c := by
  induction h with
  | nil => intro b hb; cases hb
  | cons hr hbs hts ihb iht =>
    intro b hb
    simp only [forestLabels_cons, List.mem_cons, List.mem_append] at hb ⊢
    rcases hb with rfl | hb | hb
    · exact ⟨_, .inl rfl, hr⟩
    · obtain ⟨c, hc, hrc⟩ := ihb b hb
      exact ⟨c, .inr (.inl hc), hrc⟩
    · obtain ⟨c, hc, hrc⟩ := iht b hb
      exact ⟨c, .inr (.inr hc), hrc⟩

/-- The labels on the left may be changed first. -/
theorem of_forestMap {f : δ → β} {ss : List (Tree δ)} (h : Alike R (forestMap f ss) us) :
    Alike (fun d c => R (f d) c) ss us := by
  induction ss using forest_induction generalizing us with
  | nil => cases h; exact .nil
  | cons d ds ss ihd ihs =>
    rw [forestMap_nodeCons] at h
    cases h with
    | cons hr hbs hts => exact .cons hr (ihd hbs) (ihs hts)

/-- Labels that a function tells apart from nothing else are changed alike. -/
theorem forestMap_eq {f : β → δ} {g : γ → δ} (h : Alike (fun b c => g c = f b) ts us) :
    forestMap g us = forestMap f ts := by
  induction h with
  | nil => rfl
  | cons hr _ _ ihb iht => rw [forestMap_nodeCons, forestMap_nodeCons, hr, ihb, iht]

/-- A step that is taken at all labels on the right in turn keeps forests alike. -/
theorem forestMapState {Q : β → δ → Prop} {f : γ → σ → δ × σ} (h : Alike R ts us)
    (hf : ∀ b c s, R b c → Q b (f c s).1) (s : σ) : Alike Q ts (forestMapState f us s).1 := by
  induction h generalizing s with
  | nil => exact .nil
  | cons hr _ _ ihb iht =>
    rw [forestMapState_nodeCons]
    exact .cons (hf _ _ s hr) (ihb _) (iht _)

end Alike

/-- A forest is like itself. -/
theorem alike_self {R : β → β → Prop} {ts : List (Tree β)} (h : ∀ b ∈ forestLabels ts, R b b) :
    Alike R ts ts := by
  induction ts using forest_induction with
  | nil => exact .nil
  | cons b bs ts ihb iht =>
    simp only [forestLabels_cons, List.mem_cons, List.mem_append] at h
    exact .cons (h b (.inl rfl)) (ihb fun c hc => h c (.inr (.inl hc)))
      (iht fun c hc => h c (.inr (.inr hc)))

/-- Every label that a step gives comes from a label of the forest. -/
theorem exists_of_mem_forestMapState {f : β → σ → γ × σ} {ts : List (Tree β)} {s : σ} {c : γ}
    (h : c ∈ forestLabels (forestMapState f ts s).1) :
    ∃ b ∈ forestLabels ts, ∃ s', c = (f b s').1 := by
  have hself : Alike Eq ts ts := alike_self fun _ _ => rfl
  have hstep : Alike (fun b c => ∃ s', c = (f b s').1) ts (forestMapState f ts s).1 :=
    hself.forestMapState (fun b _ s' hb => ⟨s', by rw [hb]⟩) s
  exact hstep.exists_left c h

end Otui.Tree
