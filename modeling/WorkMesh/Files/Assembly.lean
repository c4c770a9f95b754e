import WorkMesh.Files.Chunks

/-!
# When an upload is whole

The requests of one upload arrive in any order, again or not at all. What the file
of the upload holds is followed with the indices that were written into it since it
was last emptied or moved away.
-/

namespace WorkMesh.Files

open Encoding StateMachine FileTree

/-! ## An upload -/

/-- A content cut into chunks, for a file of one name. -/
structure Split where
  chunks : List Bytes
  filename : Bytes
  dir : Bytes
  uploadID : Bytes
  ordinary : filename ≠ bytes "." ∧ filename ≠ bytes ".."

def Split.content (s : Split) : Bytes := s.chunks.flatten

def Split.count (s : Split) : ℕ := s.chunks.length

/-- The request brings one of the chunks with its true offset. -/
structure Split.Sends (s : Split) (r : ChunkRequest) : Prop where
  chunk : s.chunks[r.number.index]? = some r.chunk
  count : r.number.count = s.count
  offset : r.offset = offsetOf s.chunks r.number.index
  filename : r.filename = s.filename
  dir : r.dir = s.dir
  uploadID : r.uploadID = s.uploadID

structure Event where
  now : ℤ
  form : ChunkForm
  outcomes : Outcomes

def Split.workDir (s : Split) (p : Place) : Path := p.path (joinPath p.fileChunkDir s.uploadID)

def Split.part (s : Split) (p : Place) : Path := s.workDir p ++ [s.filename ++ bytes ".part"]

def Split.dst (s : Split) (p : Place) : Path := p.path s.dir ++ [s.filename]

namespace Split.Sends

variable {s : Split} {r : ChunkRequest} (h : s.Sends r) (p : Place)
include h

theorem workDir_eq : p.workDir r = s.workDir p := by rw [Place.workDir, h.uploadID, Split.workDir]

theorem partPath_eq : p.partPath r = s.part p := by
  rw [Place.partPath, h.workDir_eq p, h.filename, Split.part]

theorem dstFile_eq : p.dstFile r = s.dst p := by
  rw [Place.dstFile, h.filename, h.dir]
  simp [s.ordinary, Split.dst]

end Split.Sends

theorem Split.part_ne_dst (s : Split) (p : Place) : s.part p ≠ s.dst p := by
  intro heq
  have hlast : s.filename ++ bytes ".part" = s.filename := by
    simpa using (List.append_inj' heq rfl).2
  have hlen := congrArg List.length hlast
  rw [List.length_append] at hlen
  have hmark : (bytes ".part").length = 5 := by decide
  omega

theorem Split.part_ne_nil (s : Split) (p : Place) : s.part p ≠ [] :=
  List.append_ne_nil_of_right_ne_nil _ (List.cons_ne_nil _ _)

/-- The copy beside the destination is another file than the destination and the part. -/
theorem Split.marked_ne (s : Split) (p : Place) :
    marked (s.dst p) (bytes ".workmesh-upload.tmp") ≠ s.dst p ∧
      marked (s.dst p) (bytes ".workmesh-upload.tmp") ≠ s.part p := by
  have hmarked : marked (s.dst p) (bytes ".workmesh-upload.tmp") =
      p.path s.dir ++ [s.filename ++ bytes ".workmesh-upload.tmp"] := by
    simp [marked, Split.dst]
  rw [hmarked]
  constructor
  · intro heq
    have hlen := congrArg List.length (List.append_inj' heq rfl).2
    have hlast : s.filename ++ bytes ".workmesh-upload.tmp" = s.filename := by
      simpa using (List.append_inj' heq rfl).2
    have hlen := congrArg List.length hlast
    rw [List.length_append] at hlen
    have hmark : (bytes ".workmesh-upload.tmp").length = 20 := by decide
    omega
  · intro heq
    have hlast : s.filename ++ bytes ".workmesh-upload.tmp" = s.filename ++ bytes ".part" := by
      simpa using (List.append_inj' heq rfl).2
    have hlen := congrArg List.length (List.append_cancel_left hlast)
    exact absurd hlen (by decide)

/-! ## What one request does to the two files -/

section Files
variable {t u : Tree} {source destination : Path} {d : Bytes}

theorem guarded_some {good : Bool} {x : Option Tree} (h : guarded good x = some u) : x = some u := by
  unfold guarded at h
  split at h
  · exact h
  · cases h

theorem content_sweep {dir q : Path} {taken : Option (List Path)} (hout : ¬ dir <+: q) :
    (sweep t dir taken).content q = t.content q := by
  cases taken with
  | none => rw [sweep, content_removeAll, if_neg hout]
  | some taken =>
      rw [sweep, content_removeSome, if_neg]
      rintro ⟨r, -, hdir, -, hrq⟩
      exact hout (hdir.trans hrq)

theorem content_sweep_none {dir q : Path} {taken : Option (List Path)} (hq : t.content q = none) :
    (sweep t dir taken).content q = none := by
  cases taken with
  | none => rw [sweep, content_removeAll, hq, ite_self]
  | some taken => rw [sweep, content_removeSome, hq, ite_self]

/-- The move succeeds and the destination has the content of the source, or it fails and the
destination may have it already. -/
theorem moveChunkIntoPlace_spec (how : Moving) (hne : source ≠ destination)
    (hsource : source ≠ []) (hd : t.content source = some d)
    (htmp : marked destination (bytes ".workmesh-upload.tmp") ≠ destination ∧
      marked destination (bytes ".workmesh-upload.tmp") ≠ source) :
    let out := moveChunkIntoPlace t source destination how
    (out.2 = true ∧ out.1.content source = none ∧ out.1.content destination = some d) ∨
    (out.2 = false ∧ out.1.content source = some d ∧
      (out.1.content destination = t.content destination ∨
        out.1.content destination = some d)) := by
  have hnil : marked destination (bytes ".workmesh-upload.tmp") ≠ [] :=
    List.append_ne_nil_of_right_ne_nil _ (List.cons_ne_nil _ _)
  cases how with
  | renamed =>
      unfold moveChunkIntoPlace
      dsimp only
      cases hmove : t.move source destination with
      | none => exact .inr ⟨rfl, hd, .inl rfl⟩
      | some u =>
          refine .inl ⟨rfl, ?_, ?_⟩
          · rw [content_move hmove hd, if_neg hne, if_pos rfl]
          · rw [content_move hmove hd, if_pos rfl]
  | failed => exact .inr ⟨rfl, hd, .inl rfl⟩
  | copied whole placed removed =>
      unfold moveChunkIntoPlace
      dsimp only
      generalize marked destination (bytes ".workmesh-upload.tmp") = tmp at htmp hnil ⊢
      rw [hd]
      dsimp only [Option.getD_some]
      cases hput : t.put tmp d with
      | none => exact .inr ⟨rfl, hd, .inl rfl⟩
      | some written =>
          dsimp only
          have hwritten : ∀ q, q ≠ tmp → written.content q = t.content q :=
            fun q hq => by rw [content_put hput, if_neg hq]
          -- The copy is taken away again.
          have hcleared : ∀ q, q ≠ tmp →
              ((written.remove tmp).getD written).content q = t.content q := by
            intro q hq
            cases hremove : written.remove tmp with
            | none => exact hwritten q hq
            | some cleared =>
                rw [Option.getD_some, content_remove hremove hnil, if_neg hq, hwritten q hq]
          have hsrc := (hcleared source htmp.2.symm).trans hd
          have hdst := hcleared destination htmp.1.symm
          cases whole with
          | false => exact .inr ⟨rfl, hsrc, .inl hdst⟩
          | true =>
              rw [if_pos rfl]
              cases hmove : guarded placed (written.move tmp destination) with
              | none => exact .inr ⟨rfl, hsrc, .inl hdst⟩
              | some u =>
                  dsimp only
                  have htmpd : written.content tmp = some d := by rw [content_put hput, if_pos rfl]
                  have hu := content_move (guarded_some hmove) htmpd
                  have hudst : u.content destination = some d := by rw [hu, if_pos rfl]
                  have husrc : u.content source = some d := by
                    rw [hu, if_neg hne, if_neg htmp.2.symm, hwritten _ htmp.2.symm, hd]
                  cases hremove : guarded removed (u.remove source) with
                  | none => exact .inr ⟨rfl, husrc, .inr hudst⟩
                  | some v =>
                      have hv := content_remove (guarded_some hremove) hsource
                      refine .inl ⟨rfl, ?_, ?_⟩
                      · rw [hv, if_pos rfl]
                      · rw [hv, if_neg hne.symm, hudst]

/-- The handler behind the last chunk: it succeeds, or it does not and the destination may have
the content already. -/
theorem finishUpload_spec {s : Split} {p : Place} {r : ChunkRequest} {o : Outcomes}
    (h : s.Sends r) (hd : t.content (s.part p) = some d) :
    let out := finishUpload p t r o
    (out.2.completed = true ∧ out.1.content (s.part p) = none ∧
      ¬(r.overwrite = false ∧ (t.node (s.dst p)).isSome) ∧
      (¬ s.workDir p <+: s.dst p → out.1.content (s.dst p) = some d)) ∨
    (out.2.isStored = false ∧ out.1.content (s.part p) = some d ∧
      (out.1.content (s.dst p) = t.content (s.dst p) ∨
        ¬(r.overwrite = false ∧ (t.node (s.dst p)).isSome) ∧
          out.1.content (s.dst p) = some d)) := by
  unfold finishUpload
  rw [h.partPath_eq p, h.dstFile_eq p, h.workDir_eq p]
  dsimp only
  split
  · exact .inr ⟨rfl, hd, .inl rfl⟩
  · cases hmade : guarded o.dstDir (t.mkdirAll (p.path r.dir)) with
    | none => exact .inr ⟨rfl, hd, .inl rfl⟩
    | some made =>
        have hcontent := content_mkdirAll (guarded_some hmade)
        have hnode : (t.node (s.dst p)).isSome → (made.node (s.dst p)).isSome := by
          intro hsome
          rw [node_mkdirAll (guarded_some hmade)]
          split
          · rfl
          · exact hsome
        dsimp only
        split
        · exact .inr ⟨rfl, (hcontent _).trans hd, .inl (hcontent _)⟩
        · rename_i hfree
          have hfree' : ¬(r.overwrite = false ∧ (t.node (s.dst p)).isSome) :=
            fun hcon => hfree ⟨hcon.1, hnode hcon.2⟩
          have hmove := moveChunkIntoPlace_spec o.moving (s.part_ne_dst p)
            (s.part_ne_nil p) ((hcontent _).trans hd) (s.marked_ne p)
          dsimp only at hmove
          rcases hout : moveChunkIntoPlace made (s.part p) (s.dst p) o.moving with ⟨moved, good⟩
          rw [hout] at hmove
          rcases hmove with ⟨hgood, hpart, hdst⟩ | ⟨hgood, hpart, hdst⟩
          · subst hgood
            refine .inl ⟨rfl, content_sweep_none hpart, hfree', fun hout => ?_⟩
            exact (content_sweep hout).trans hdst
          · subst hgood
            refine .inr ⟨rfl, hpart, hdst.imp (fun hdst => hdst.trans (hcontent _)) fun hdst =>
              ⟨hfree', hdst⟩⟩

end Files

/-! ## An upload in progress -/

/-- The files, the indices of the chunks that were received, and those that were written into the
file of the upload since it was last emptied or moved away. -/
structure Progress where
  tree : Tree
  received : List ℕ := []
  kept : List ℕ := []

/-- A chunk that is written whole is received. -/
def Progress.store (p : Place) (g : Progress) (r : ChunkRequest) (o : Outcomes) : Progress :=
  let kept := if r.truncates o then [] else g.kept
  { tree := (storeChunk p g.tree r o).1
    received :=
      if (writePart p g.tree r o).2 && o.stopped.isNone then r.number.index :: g.received
      else g.received
    kept :=
      if (storeChunk p g.tree r o).2.completed then []
      else if (writePart p g.tree r o).2 = false then g.kept
      else if o.stopped.isSome then kept
      else r.number.index :: kept }

def Progress.step (p : Place) (g : Progress) (e : Event) : Progress :=
  match checkForm e.now e.form with
  | .error _ => g
  | .ok r => g.store p r e.outcomes

/-- What `handleChunkUpload` answers. -/
def Progress.answer (p : Place) (g : Progress) (e : Event) : Response :=
  (handleChunkUpload p e.now g.tree e.form e.outcomes).2

theorem Progress.step_tree (p : Place) (g : Progress) (e : Event) :
    (g.step p e).tree = (handleChunkUpload p e.now g.tree e.form e.outcomes).1 := by
  unfold Progress.step handleChunkUpload
  cases checkForm e.now e.form <;> rfl

/-- The chunks fit into the accepted size of a part. -/
def Split.Small (s : Split) : Prop := ∀ c ∈ s.chunks, c.length ≤ partLimit

/-- A request that the destination keeps, since it is there and is not to be overwritten. -/
def Split.Spared (s : Split) (p : Place) (g : Progress) (r : ChunkRequest) : Prop :=
  r.overwrite = false ∧ (g.tree.node (s.dst p)).isSome

/-- The condition on a request: when the last index arrives, every other chunk was written since
the file of the upload was last emptied, the chunks are small, and the destination is not in the
directory of the upload; or the destination is spared. -/
def Split.Ready (s : Split) (p : Place) (g : Progress) (e : Event) : Prop :=
  ∀ r, checkForm e.now e.form = .ok r → r.number.index + 1 = s.count →
    (∀ i < s.count, i ≠ r.number.index → i ∈ g.kept) ∧ s.Small ∧ ¬ s.workDir p <+: s.dst p ∨
      s.Spared p g r

/-- A request is completed only when every chunk was received, and the destination then has the
content; before the last of the chunks is received, or where one is too large, the destination
stays. -/
structure Split.Right (s : Split) (p : Place) (g : Progress) (e : Event) : Prop where
  whole : (g.answer p e).completed = true →
    (∀ i < s.count, i ∈ (g.step p e).received) ∧
      (g.step p e).tree.content (s.dst p) = some s.content
  spared : ¬((∀ i < s.count, i ∈ (g.step p e).received) ∧ s.Small) →
    (g.step p e).tree.content (s.dst p) = g.tree.content (s.dst p)

/-- The file of the upload: nothing lies beyond the content, and the kept chunks are in it. -/
structure Split.Inv (s : Split) (p : Place) (g : Progress) : Prop where
  length : ((g.tree.content (s.part p)).getD []).length ≤ s.content.length
  kept : ∀ i ∈ g.kept, i ∈ g.received
  agrees : s.Small → ∀ i ∈ g.kept, ∀ c, s.chunks[i]? = some c →
    Agrees s.content ((g.tree.content (s.part p)).getD []) (offsetOf s.chunks i)
      (offsetOf s.chunks i + c.length)

namespace Split

variable {s : Split} {p : Place} {g : Progress} {r : ChunkRequest} {o : Outcomes}

/-- What is written of a chunk is a part of the content at its place. -/
theorem Sends.part_agrees (h : s.Sends r) (o : Outcomes) :
    ∃ part : Bytes, (∀ old, r.written o old = writeAt 0 (if r.truncates o then [] else old)
        (offsetOf s.chunks r.number.index) part) ∧
      part.length ≤ r.chunk.length ∧
      (∀ k < part.length, part[k]? = s.content[offsetOf s.chunks r.number.index + k]?) ∧
      (s.Small → o.stopped = none → part = r.chunk) := by
  have hfront : ∃ n, (o.stopped.map (r.chunk.take partLimit).take).getD (r.chunk.take partLimit) =
      r.chunk.take n ∧ (s.Small → o.stopped = none → r.chunk.length ≤ n) := by
    cases hstop : o.stopped with
    | none => exact ⟨partLimit, rfl, fun hsmall _ => hsmall _ (List.mem_of_getElem? h.chunk)⟩
    | some n =>
        refine ⟨min n partLimit, ?_, fun _ hcon => by cases hcon⟩
        rw [Option.map_some, Option.getD_some, List.take_take]
  obtain ⟨n, hn, hwhole⟩ := hfront
  refine ⟨r.chunk.take n, fun old => ?_, ?_, fun k hk => ?_, fun hsmall hstop => ?_⟩
  · rw [ChunkRequest.written, hn, h.offset]
  · rw [List.length_take]
    omega
  · rw [List.length_take] at hk
    rw [List.getElem?_take_of_lt (by omega), piece_agrees h.chunk (by omega)]
    rfl
  · exact List.take_of_length_le (hwhole hsmall hstop)

/-- What writing a chunk does to the two files. -/
theorem Sends.writePart (h : s.Sends r) (hg : s.Inv p g) (o : Outcomes) :
    let out := writePart p g.tree r o
    out.1.content (s.dst p) = g.tree.content (s.dst p) ∧
    ((g.tree.node (s.dst p)).isSome → (out.1.node (s.dst p)).isSome) ∧
    (out.2 = false → out.1.content (s.part p) = g.tree.content (s.part p)) ∧
    (out.2 = true → ∃ d, out.1.content (s.part p) = some d ∧ d.length ≤ s.content.length ∧
      (s.Small → ∀ i, i ∈ (if r.truncates o then [] else g.kept) ∨
          o.stopped = none ∧ i = r.number.index →
        ∀ c, s.chunks[i]? = some c →
          Agrees s.content d (offsetOf s.chunks i) (offsetOf s.chunks i + c.length))) := by
  obtain ⟨part, hwritten, hlen, hpart, hwhole⟩ := h.part_agrees o
  have hne := s.part_ne_dst p
  unfold Files.writePart
  rw [h.partPath_eq p, h.workDir_eq p]
  dsimp only
  have hsome : ∀ {t u : Tree} {q : Path}, t.mkdirAll q = some u →
      (t.node (s.dst p)).isSome → (u.node (s.dst p)).isSome := by
    intro t u q hu ht
    rw [node_mkdirAll hu]
    split
    · rfl
    · exact ht
  cases hfirst : guarded o.chunkDir (g.tree.mkdirAll (p.path p.fileChunkDir)) with
  | none => exact ⟨rfl, id, fun _ => rfl, fun h => by cases h⟩
  | some first =>
      have hfirst' := guarded_some hfirst
      dsimp only
      cases hsecond : guarded o.workDir (first.mkdirAll (s.workDir p)) with
      | none =>
          exact ⟨content_mkdirAll hfirst' _, hsome hfirst', fun _ => content_mkdirAll hfirst' _,
            fun h => by cases h⟩
      | some second =>
          have hsecond' := guarded_some hsecond
          have hcontent : ∀ q, second.content q = g.tree.content q := fun q => by
            rw [content_mkdirAll hsecond', content_mkdirAll hfirst']
          have hnode : (g.tree.node (s.dst p)).isSome → (second.node (s.dst p)).isSome :=
            fun hdst => hsome hsecond' (hsome hfirst' hdst)
          dsimp only
          rw [hcontent, hwritten]
          generalize hold : (if r.truncates o then [] else (g.tree.content (s.part p)).getD []) = old
          cases hput : guarded o.opened
              (second.put (s.part p) (writeAt 0 old (offsetOf s.chunks r.number.index) part)) with
          | none => exact ⟨hcontent _, hnode, fun _ => hcontent _, fun h => by cases h⟩
          | some third =>
              have hput' := guarded_some hput
              refine ⟨?_, fun hdst => ?_, (fun h => by cases h),
                fun _ => ⟨writeAt 0 old (offsetOf s.chunks r.number.index) part, ?_, ?_,
                  fun hsmall i hi c hc => ?_⟩⟩
              · rw [content_put hput', if_neg hne.symm, hcontent]
              · rw [node_put hput', if_neg hne.symm]
                exact hnode hdst
              · rw [content_put hput', if_pos rfl]
              · have hold' : old.length ≤ s.content.length := by
                  rw [← hold]
                  split
                  · exact Nat.zero_le _
                  · exact hg.length
                have hle : offsetOf s.chunks r.number.index + r.chunk.length ≤ s.content.length :=
                  offsetOf_add_le h.chunk
                have hwrite := length_writeAt_le (0 : UInt8) old (offsetOf s.chunks r.number.index) part
                omega
              · rcases hi with hi | ⟨hstop, rfl⟩
                · refine Agrees.writeAt ?_ (offsetOf_add_le hc) hpart
                  split at hi
                  · cases hi
                  · rename_i htrunc
                    rw [← hold, if_neg htrunc]
                    exact hg.agrees hsmall i hi c hc
                · obtain rfl := Option.some.inj (hc.symm.trans h.chunk)
                  have heq := hwhole hsmall hstop
                  have hagree := agrees_writeAt (0 : UInt8) old hpart
                  rwa [heq] at hagree ⊢

/-- The request brings a chunk of the upload. -/
def Brings (s : Split) (e : Event) : Prop := ∃ r, checkForm e.now e.form = .ok r ∧ s.Sends r

theorem Brings.step {e : Event} (he : checkForm e.now e.form = .ok r) :
    g.step p e = g.store p r e.outcomes := by
  rw [Progress.step, he]

theorem Brings.answer {e : Event} (he : checkForm e.now e.form = .ok r) :
    g.answer p e = (storeChunk p g.tree r e.outcomes).2 := by
  rw [Progress.answer, handleChunkUpload, he]

theorem Inv.received_all (hg : s.Inv p g) {index : ℕ}
    (hall : ∀ i < s.count, i ≠ index → i ∈ g.kept) : ∀ i < s.count, i ∈ index :: g.received := by
  intro i hi
  by_cases heq : i = index
  · exact heq ▸ List.mem_cons_self
  · exact List.mem_cons_of_mem _ (hg.kept i (hall i hi heq))

/-- When the other chunks are all there, the file of the upload is the content. -/
theorem eq_content {kept : List ℕ} {d : Bytes} (hlast : r.number.index + 1 = s.count)
    (hall : ∀ i < s.count, i ≠ r.number.index → i ∈ kept) (hlength : d.length ≤ s.content.length)
    (hagrees : ∀ i ∈ r.number.index :: (if r.truncates o then [] else kept),
      ∀ c, s.chunks[i]? = some c →
        Agrees s.content d (offsetOf s.chunks i) (offsetOf s.chunks i + c.length)) :
    d = s.content := by
  refine eq_flatten_of_pieces (fun i c hc => hagrees i ?_ c hc) hlength
  have hi : i < s.count := (List.getElem?_eq_some_iff.mp hc).1
  by_cases hself : i = r.number.index
  · exact hself ▸ List.mem_cons_self
  · refine List.mem_cons_of_mem _ ?_
    rw [if_neg]
    · exact hall i hi hself
    · -- A chunk that is first and last is the only one.
      intro htrunc
      simp only [ChunkRequest.truncates, Bool.and_eq_true, decide_eq_true_eq] at htrunc
      omega

/-- The last chunk: the upload is completed with the content, or the file of the upload stays. -/
theorem Inv.finish (hg : s.Inv p g) (h : s.Sends r) (hlast : r.number.index + 1 = s.count)
    {t : Tree} {d : Bytes} (hd : t.content (s.part p) = some d)
    (hlength : d.length ≤ s.content.length)
    (hdst : t.content (s.dst p) = g.tree.content (s.dst p))
    (hnode : (g.tree.node (s.dst p)).isSome → (t.node (s.dst p)).isSome)
    (hagrees : s.Small → ∀ i ∈ r.number.index :: (if r.truncates o then [] else g.kept),
      ∀ c, s.chunks[i]? = some c →
        Agrees s.content d (offsetOf s.chunks i) (offsetOf s.chunks i + c.length))
    (hready : (∀ i < s.count, i ≠ r.number.index → i ∈ g.kept) ∧ s.Small ∧
        ¬ s.workDir p <+: s.dst p ∨ s.Spared p g r) :
    let out := finishUpload p t r o
    (out.2.completed = true ∧ out.1.content (s.part p) = none ∧
      out.1.content (s.dst p) = some s.content ∧
      (∀ i < s.count, i ∈ r.number.index :: g.received) ∧ s.Small) ∨
    (out.2.completed = false ∧ out.1.content (s.part p) = some d ∧
      (out.1.content (s.dst p) = g.tree.content (s.dst p) ∨
        (∀ i < s.count, i ∈ r.number.index :: g.received) ∧ s.Small)) := by
  have hfinish := finishUpload_spec (o := o) h hd
  intro out
  have hall : ¬(r.overwrite = false ∧ (t.node (s.dst p)).isSome) →
      (∀ i < s.count, i ≠ r.number.index → i ∈ g.kept) ∧ s.Small ∧ ¬ s.workDir p <+: s.dst p :=
    fun hfree => hready.resolve_right fun hspared => hfree ⟨hspared.1, hnode hspared.2⟩
  rcases hfinish with ⟨hcompleted, hgone, hfree, hwhole⟩ | ⟨hrefused, hstays, hthere⟩
  · obtain ⟨hkept, hsmall, hout⟩ := hall hfree
    refine .inl ⟨hcompleted, hgone, ?_, hg.received_all hkept, hsmall⟩
    rw [hwhole hout, eq_content hlast hkept hlength (hagrees hsmall)]
  · refine .inr ⟨?_, hstays, ?_⟩
    · unfold out
      cases hanswer : (finishUpload p t r o).2 with
      | refused status message => rfl
      | stored uploadID index count completed path =>
          rw [hanswer] at hrefused
          cases hrefused
    · rcases hthere with hsame | ⟨hfree, -⟩
      · exact .inl (hsame.trans hdst)
      · obtain ⟨hkept, hsmall, -⟩ := hall hfree
        exact .inr ⟨hg.received_all hkept, hsmall⟩

/-- One accepted request: the invariant stays, and the request is answered rightly. -/
theorem Inv.store (hg : s.Inv p g) (h : s.Sends r)
    (hready : r.number.index + 1 = s.count →
      (∀ i < s.count, i ≠ r.number.index → i ∈ g.kept) ∧ s.Small ∧ ¬ s.workDir p <+: s.dst p ∨
        s.Spared p g r) :
    s.Inv p (g.store p r o) ∧
      ((storeChunk p g.tree r o).2.completed = true →
        (∀ i < s.count, i ∈ (g.store p r o).received) ∧
          (g.store p r o).tree.content (s.dst p) = some s.content) ∧
      (¬((∀ i < s.count, i ∈ (g.store p r o).received) ∧ s.Small) →
        (g.store p r o).tree.content (s.dst p) = g.tree.content (s.dst p)) := by
  have hwrite := h.writePart hg o
  have hbase : ∀ i ∈ (if r.truncates o then [] else g.kept), i ∈ g.received := by
    intro i hi
    split at hi
    · cases hi
    · exact hg.kept i hi
  unfold Progress.store
  dsimp only at hwrite ⊢
  generalize hres : storeChunk p g.tree r o = res
  unfold storeChunk at hres
  generalize Files.writePart p g.tree r o = out at hwrite hres ⊢
  obtain ⟨t, done⟩ := out
  obtain ⟨hdst, hnode, hunwritten, hpart⟩ := hwrite
  cases done with
  | false =>
      subst hres
      refine ⟨⟨?_, hg.kept, ?_⟩, (fun hcon => by cases hcon), fun _ => hdst⟩
      · rw [hunwritten rfl]
        exact hg.length
      · rw [hunwritten rfl]
        exact hg.agrees
  | true =>
      obtain ⟨d, hd, hlength, hagrees⟩ := hpart rfl
      have hgetD : ((t.content (s.part p)).getD []) = d := by rw [hd, Option.getD_some]
      cases hstop : o.stopped with
      | some n =>
          rw [hstop] at hres
          subst hres
          refine ⟨⟨?_, hbase, fun hsmall i hi => ?_⟩, (fun hcon => by cases hcon), fun _ => hdst⟩
          · exact hgetD ▸ hlength
          · exact hgetD ▸ hagrees hsmall i (.inl hi)
      | none =>
          rw [hstop] at hres
          simp only [Option.isSome_none, Option.isNone_none, Bool.false_eq_true, if_false,
            Bool.true_and, if_true, Bool.true_eq_false] at hres ⊢
          have hkept : ∀ i ∈ r.number.index :: (if r.truncates o then [] else g.kept),
              i ∈ r.number.index :: g.received :=
            fun i hi => (List.mem_cons.mp hi).elim (fun heq => heq ▸ List.mem_cons_self)
              fun hi => List.mem_cons_of_mem _ (hbase i hi)
          have hagrees' : s.Small →
              ∀ i ∈ r.number.index :: (if r.truncates o then [] else g.kept),
                ∀ c, s.chunks[i]? = some c →
                  Agrees s.content d (offsetOf s.chunks i) (offsetOf s.chunks i + c.length) :=
            fun hsmall i hi => hagrees hsmall i ((List.mem_cons.mp hi).elim
              (fun heq => .inr ⟨hstop, heq⟩) .inl)
          split at hres
          · rename_i hlast
            rw [h.count] at hlast
            have hfinish := hg.finish (o := o) h hlast hd hlength hdst hnode hagrees'
              (hready hlast)
            rw [hres] at hfinish
            rcases hfinish with ⟨hcompleted, hgone, hwhole, hreceived, hsmall⟩ |
              ⟨hopen, hstays, hthere⟩
            · rw [hcompleted]
              refine ⟨⟨?_, (fun i hi => by cases hi), fun _ i hi => by cases hi⟩,
                fun _ => ⟨hreceived, hwhole⟩, fun hcon => absurd ⟨hreceived, hsmall⟩ hcon⟩
              rw [hgone]
              exact Nat.zero_le _
            · rw [hopen]
              refine ⟨⟨?_, hkept, ?_⟩, (fun hcon => by cases hcon), hthere.resolve_right⟩
              · simpa only [hstays, Option.getD_some] using hlength
              · simpa only [hstays, Option.getD_some, Bool.false_eq_true, if_false] using hagrees'
          · subst hres
            refine ⟨⟨?_, hkept, ?_⟩, (fun hcon => by cases hcon), fun _ => hdst⟩
            · exact hgetD ▸ hlength
            · exact hgetD ▸ hagrees'

/-- One request. -/
theorem Inv.step (hg : s.Inv p g) {e : Event} (he : s.Brings e) (hready : s.Ready p g e) :
    s.Inv p (g.step p e) ∧ s.Right p g e := by
  obtain ⟨r, hr, h⟩ := he
  obtain ⟨hinv, hwhole, hspared⟩ := hg.store (o := e.outcomes) h (hready r hr)
  have hstep := Brings.step (p := p) (g := g) hr
  exact ⟨hstep ▸ hinv, by rwa [Brings.answer hr, hstep], by rwa [hstep]⟩

theorem inv_fresh {tree : Tree} (hfresh : tree.content (s.part p) = none) :
    s.Inv p { tree } where
  length := by simp [hfresh]
  kept := by simp
  agrees := by simp

/-- Every request of an upload is answered rightly when all its requests meet the condition. -/
theorem upload_right {tree : Tree} (hfresh : tree.content (s.part p) = none) (events : List Event)
    (hbrings : ∀ e ∈ events, s.Brings e)
    (hready : Meets (Progress.step p) (s.Ready p) { tree } events) :
    Meets (Progress.step p) (s.Right p) { tree } events := by
  generalize hstart : ({ tree } : Progress) = start at hready ⊢
  have hinv : s.Inv p start := hstart ▸ inv_fresh hfresh
  clear hstart
  induction events generalizing start with
  | nil => trivial
  | cons e events ih =>
      obtain ⟨hfirst, hrest⟩ := hready
      obtain ⟨hnext, hright⟩ := hinv.step (hbrings e List.mem_cons_self) hfirst
      exact ⟨hright, ih (fun d hd => hbrings d (List.mem_cons_of_mem _ hd)) _ hrest hnext⟩

end Split

/-! ## An upload whose last chunk comes alone -/

def inPlace : Place := { dataDir := bytes "/data" }

/-- Two chunks of a note. -/
def note : Split where
  chunks := [bytes "first ", bytes "second"]
  filename := bytes "note"
  dir := bytes "/srv"
  uploadID := bytes "u"
  ordinary := by decide

def noteForm (index offset : String) (chunk : Bytes) : ChunkForm where
  chunk := some chunk
  filename := bytes "note"
  path := bytes "/srv"
  chunkIndex := bytes index
  chunkCount := bytes "2"
  uploadID := bytes "u"
  offset := bytes offset
  fileSize := bytes "12"

def firstChunk : Event := ⟨0, noteForm "0" "0" (bytes "first "), {}⟩

def lastChunk : Event := ⟨0, noteForm "1" "6" (bytes "second"), {}⟩

def noteRequest (index : ℕ) (hindex : index < 2) (offset : ℕ) (chunk : Bytes) : ChunkRequest where
  chunk := chunk
  filename := bytes "note"
  dir := bytes "/srv"
  number := ⟨index, 2, hindex⟩
  uploadID := bytes "u"
  offset := offset
  fileSize := some 12
  overwrite := true

theorem checkForm_firstChunk :
    checkForm firstChunk.now firstChunk.form =
      .ok (noteRequest 0 (by decide) 0 (bytes "first ")) := by rfl

theorem checkForm_lastChunk :
    checkForm lastChunk.now lastChunk.form =
      .ok (noteRequest 1 (by decide) 6 (bytes "second")) := by rfl

theorem note_brings : note.Brings firstChunk ∧ note.Brings lastChunk :=
  ⟨⟨_, checkForm_firstChunk, ⟨rfl, rfl, rfl, rfl, rfl, rfl⟩⟩,
    ⟨_, checkForm_lastChunk, ⟨rfl, rfl, by decide, rfl, rfl, rfl⟩⟩⟩

theorem upload_right_note :
    Meets (Progress.step inPlace) (note.Right inPlace) { tree := .empty }
      [firstChunk, lastChunk] := by
  refine Split.upload_right (by decide +kernel) _ ?_ ⟨fun r hr hlast => ?_, fun r hr _ => ?_, trivial⟩
  · simpa using note_brings
  · obtain rfl := Except.ok.inj (checkForm_firstChunk.symm.trans hr)
    exact absurd hlast (by decide)
  · obtain rfl := Except.ok.inj (checkForm_lastChunk.symm.trans hr)
    refine .inl ⟨fun i hi hne => ?_, ?_, by decide +kernel⟩
    · obtain rfl : i = 0 := by
        change i < 2 at hi
        change i ≠ 1 at hne
        omega
      decide +kernel
    · intro c hc
      have hsmall : ∀ c ∈ note.chunks, c.length ≤ 6 := by decide
      exact (hsmall c hc).trans (by decide)

/-- A note that is there already. -/
def oldNote : Tree :=
  ((FileTree.empty.mkdirAll [bytes "srv"]).bind
    (·.put [bytes "srv", bytes "note"] (bytes "old"))).getD .empty

/-- The last chunk alone takes the place of the old note, with zeros before it. -/
theorem last_chunk_alone :
    (handleChunkUpload inPlace 0 oldNote lastChunk.form {}).1.content (note.dst inPlace) =
        some ([0, 0, 0, 0, 0, 0] ++ bytes "second") ∧
      note.Brings lastChunk ∧
      ¬ Meets (Progress.step inPlace) (note.Right inPlace) { tree := oldNote } [lastChunk] := by
  refine ⟨by decide +kernel, note_brings.2, fun hmeets => ?_⟩
  have hcompleted : (({ tree := oldNote } : Progress).answer inPlace lastChunk).completed = true := by
    decide +kernel
  have hreceived := (hmeets.1.whole hcompleted).1 0 (by decide)
  revert hreceived
  decide +kernel

end WorkMesh.Files
