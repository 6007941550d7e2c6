import ComponentBuilder.Text.Basic

/-!
# The vocabulary of components

The components, layout primitives and icons that generated code may use, and what follows from them:
the tags and import paths it may name.
-/

namespace ComponentBuilder

namespace Vocabulary

/-- The components of the design system. -/
def components : List String :=
  ["Button", "Card", "Chart", "Input", "Modal", "Navbar", "Sidebar", "Table", "Textarea"]

/-- The primitives that lay out a page. -/
def layoutPrimitives : List String :=
  ["Container", "Grid", "Inline", "Section", "Stack"]

/-- The icons. -/
def icons : List String :=
  ["Activity", "ArrowDown", "ArrowRight", "ArrowUp", "BarChart", "Behance", "Bell", "Briefcase",
    "Calendar", "Check", "ChevronRight", "Clock", "Cpu", "CreditCard", "Download", "Dribbble",
    "DollarSign", "ExternalLink", "Facebook", "Figma", "FileText", "Filter", "Github", "Globe",
    "Home", "Instagram", "LayoutDashboard", "LineChart", "Linkedin", "Mail", "Menu",
    "MessageSquare", "MoreVertical", "PieChart", "Plus", "Search", "Settings", "Share2", "Shield",
    "Target", "Trash2", "TrendingDown", "TrendingUp", "Twitter", "Users", "X", "Youtube", "Zap"]

/-- The components that a plan may name. -/
def planComponents : List String :=
  components ++ layoutPrimitives

/-- The capitalised tags that strict checking accepts. -/
def tags : List String :=
  planComponents ++ icons ++ icons.map (· ++ "Icon") ++ ["React.Fragment", "Fragment"]

/-- The package the icons come from. -/
def iconPackage : String :=
  "lucide-react"

/-- The import paths that strict checking accepts. -/
def importPaths : List String :=
  ["react", iconPackage] ++
    ["../", "../../"].flatMap (fun up => layoutPrimitives.map (up ++ "layout-primitives/" ++ ·)) ++
    ["../", "../../"].flatMap (fun up => components.map (up ++ "components/" ++ ·))

/-- The hooks that the preview passes to a component. -/
def hooks : List String :=
  ["useState", "useEffect", "useMemo", "useCallback", "useRef", "useContext", "useReducer",
    "useLayoutEffect"]

/-- The path from which generated code imports a component of the vocabulary. -/
def importPath (name : String) : String :=
  "../" ++ (if layoutPrimitives.contains name then "layout-primitives" else "components") ++ "/" ++
    name

/-- The import statement of a component. -/
def importLine (name : String) : String :=
  "import \x7b " ++ name ++ " \x7d from '" ++ importPath name ++ "';"

end Vocabulary

end ComponentBuilder
