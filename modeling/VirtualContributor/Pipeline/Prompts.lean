import Mathlib.Init

/-!
# Summarisation prompts

The prompt texts of `core/domain/pipeline/prompts.py` that the two
summarisation steps use.  A template is a function of the values that
`str.format` fills in.
-/

namespace VirtualContributor.Pipeline

def DOCUMENT_REFINE_SYSTEM : String :=
  "Expert at creating structured, information-dense summaries for semantic search and vector retrieval.\n\n" ++
  "FORMAT:\n" ++
  "- Use markdown headers (### or **bold**) to organize content by theme\n" ++
  "- Use bullet points for lists of related facts\n" ++
  "- Each bullet must contain specific facts with dates, names, or numbers\n\n" ++
  "REQUIREMENTS:\n" ++
  "- Preserve ALL key entities: names, titles, dates, numbers, technical terms, URLs, references\n" ++
  "- Use concrete, factual language - no vague descriptions\n" ++
  "- Include domain-specific terminology and searchable keywords\n" ++
  "- Maximize information density - every sentence must convey specific facts\n\n" ++
  "FORBIDDEN:\n" ++
  "- No repetitive sentence patterns\n" ++
  "- No generic filler statements without specific details\n" ++
  "- No vague phrases like \"various things\" or \"several aspects\"\n" ++
  "- No interpretations or opinions not in source\n" ++
  "- Never repeat the same information twice"

def DOCUMENT_MAP_TEMPLATE (text : String) (budget : Nat) : String :=
  "Summarize this portion of a larger document. Capture every specific " ++
  "entity, number, name, date, URL, or technical term verbatim.\n" ++
  "Use markdown: ### headers and bullet points. No filler, no opinions, " ++
  "no repetition.\n" ++
  s!"Target length: around {budget} characters; exceed only when needed to " ++
  "preserve a fact.\n\n" ++
  s!"Content:\n{text}\n\nPartial summary:"

def DOCUMENT_REDUCE_SYSTEM : String :=
  "You merge several partial summaries of the SAME document into one " ++
  "cohesive summary without losing facts.\n\n" ++
  "FORMAT:\n" ++
  "- Markdown with ### headers and bullet points grouped by theme\n" ++
  "- Dense factual bullets with specific entities, dates, numbers\n\n" ++
  "REQUIREMENTS:\n" ++
  "- Preserve every distinct fact from every partial summary\n" ++
  "- Deduplicate: if two partials state the same fact, keep it once\n" ++
  "- Reorder and regroup for coherence; do NOT add new facts\n\n" ++
  "FORBIDDEN:\n" ++
  "- No filler, no generic statements, no opinions\n" ++
  "- No source attributions like \"one summary says\""

def DOCUMENT_REDUCE_TEMPLATE (summaries : String) (budget : Nat) : String :=
  "Merge these partial summaries of a single document into one unified " ++
  "summary.\n" ++
  s!"Target length: around {budget} characters; exceed if needed to keep " ++
  "a fact.\n\n" ++
  s!"Partial summaries (separated by ---):\n{summaries}\n\n" ++
  "Unified summary:"

def BOK_OVERVIEW_SYSTEM : String :=
  "Create a structured high-level overview of an entire body of knowledge for semantic search retrieval.\n\n" ++
  "This summary helps determine if this body of knowledge is relevant to user queries.\n\n" ++
  "FORMAT:\n" ++
  "- Use markdown headers (### or **bold**) to organize by theme\n" ++
  "- Use bullet points for lists of entities, dates, and connections\n" ++
  "- Each section should contain specific, searchable facts\n\n" ++
  "REQUIREMENTS:\n" ++
  "- Capture overall scope, themes, and domains covered\n" ++
  "- Preserve key cross-cutting entities: participant names, organizations, major initiatives\n" ++
  "- Include temporal scope (date ranges, time periods)\n" ++
  "- Identify main topic areas and their relationships\n" ++
  "- Use searchable terminology\n\n" ++
  "FORBIDDEN:\n" ++
  "- No repetitive sentence patterns\n" ++
  "- No generic filler statements\n" ++
  "- No redundant information - each fact appears only once"

def BOK_MAP_TEMPLATE (text : String) (budget : Nat) : String :=
  "Extract the key themes, entities and facts from this section of a " ++
  "body of knowledge. Focus on what makes it searchable — organization " ++
  "names, participants, initiatives, dates, topic areas.\n" ++
  "Use markdown (### headers, bullets). No filler.\n" ++
  s!"Target length: around {budget} characters.\n\n" ++
  s!"Section:\n{text}\n\nPartial overview:"

def BOK_REDUCE_SYSTEM : String :=
  "You merge partial overviews of a single body of knowledge into one " ++
  "cohesive, search-optimised overview.\n\n" ++
  "FORMAT:\n" ++
  "- Markdown headers grouped by theme\n" ++
  "- Bullet points of specific, searchable facts\n\n" ++
  "REQUIREMENTS:\n" ++
  "- Preserve every distinct theme, entity, date and connection\n" ++
  "- Deduplicate shared facts\n" ++
  "- Regroup by topic for coherence; do NOT invent facts\n\n" ++
  "FORBIDDEN:\n" ++
  "- No filler or generic statements\n" ++
  "- No \"according to one summary\" attributions"

def BOK_REDUCE_TEMPLATE (summaries : String) (budget : Nat) : String :=
  "Merge these partial overviews of a body of knowledge into one unified " ++
  "overview.\n" ++
  s!"Target length: around {budget} characters; exceed if needed to keep " ++
  "a cross-cutting theme or entity.\n\n" ++
  s!"Partial overviews (separated by ---):\n{summaries}\n\n" ++
  "Unified overview:"

end VirtualContributor.Pipeline
