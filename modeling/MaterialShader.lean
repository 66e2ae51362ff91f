import MaterialShader.Code
import MaterialShader.CommandLine.Options
import MaterialShader.CommandLine.Run
import MaterialShader.Error
import MaterialShader.Field.Active
import MaterialShader.Field.Basic
import MaterialShader.FileLookup
import MaterialShader.FilePlace
import MaterialShader.FileStore
import MaterialShader.Graph.Basic
import MaterialShader.Graph.Decode
import MaterialShader.Graph.Incoming
import MaterialShader.Graph.Walk
import MaterialShader.Json.Document
import MaterialShader.Json.Reader
import MaterialShader.Json.Record
import MaterialShader.Json.Token
import MaterialShader.Keyword.Basic
import MaterialShader.Keyword.Decode
import MaterialShader.Keyword.Permutation
import MaterialShader.Main
import MaterialShader.Node.Branch
import MaterialShader.Node.Code
import MaterialShader.Node.Constant
import MaterialShader.Node.Input
import MaterialShader.Node.Kind
import MaterialShader.Node.Master
import MaterialShader.Node.Output
import MaterialShader.Number.Binary
import MaterialShader.Number.Decimal
import MaterialShader.Number.Single
import MaterialShader.Pass.Basic
import MaterialShader.Pass.Decode
import MaterialShader.Pass.Interpolator
import MaterialShader.Pass.Section
import MaterialShader.Pass.Struct
import MaterialShader.Path
import MaterialShader.Property
import MaterialShader.Shader.Config
import MaterialShader.Shader.Generate
import MaterialShader.Shader.Sections
import MaterialShader.Shading.Directive
import MaterialShader.Shading.Expr
import MaterialShader.Shading.Statement
import MaterialShader.Shading.ValueType
import MaterialShader.Stage.Basic
import MaterialShader.Stage.Description
import MaterialShader.Stage.Live
import MaterialShader.Stage.Requirement
import MaterialShader.Target.Basic
import MaterialShader.Target.Decode
import MaterialShader.Target.MeshStructs
import MaterialShader.Target.Preview
import MaterialShader.Target.Universal
import MaterialShader.Template.Line
import MaterialShader.Template.Process
import MaterialShader.Template.Shipped
import MaterialShader.Text.Blank
import MaterialShader.Text.Identifier
import MaterialShader.Text.Lines
import MaterialShader.Text.WordChar
import MaterialShader.Proofs.FieldClosure
import MaterialShader.Proofs.Outcome
import MaterialShader.Proofs.LiveNode
import MaterialShader.Proofs.PassFields
import MaterialShader.Proofs.DirectiveText
import MaterialShader.Proofs.Choice
import MaterialShader.Proofs.PermutationIndex
import MaterialShader.Proofs.ValueSymbol
import MaterialShader.Proofs.PermutationSymbol
import MaterialShader.Proofs.NodeText
import MaterialShader.Proofs.KeywordBranch
import MaterialShader.Proofs.WalkOrder
import MaterialShader.Proofs.StageCode
import MaterialShader.Proofs.StageOrder
import MaterialShader.Proofs.WalkReach
import MaterialShader.Proofs.NodeStatement
import MaterialShader.Proofs.NodeInput
import MaterialShader.Proofs.InputText
import MaterialShader.Proofs.InputField
import MaterialShader.Proofs.ExprType
import MaterialShader.Proofs.NodeType
import MaterialShader.Proofs.CollectedProperty
import MaterialShader.Proofs.HelperFunction
import MaterialShader.Proofs.StageType
import MaterialShader.Proofs.FieldActivity
import MaterialShader.Proofs.JoinedLine
import MaterialShader.Proofs.ProgramText
import MaterialShader.Proofs.PlainString
import MaterialShader.Proofs.ResolvedCode
import MaterialShader.Proofs.SectionPermutation
import MaterialShader.Proofs.PermutationBranch
import MaterialShader.Proofs.PackingLayout
import MaterialShader.Proofs.PackingFunction
import MaterialShader.Proofs.PackedVariant
import MaterialShader.Proofs.OutputLine
import MaterialShader.Proofs.TemplateTranscript
import MaterialShader.Proofs.TemplatePermutation
import MaterialShader.Proofs.PropertyReader
import MaterialShader.Proofs.OutputRecursion
import MaterialShader.Proofs.PassError
import MaterialShader.Proofs.KeywordError
import MaterialShader.Proofs.TemplateOutcome
import MaterialShader.Proofs.ShippedTemplate
import MaterialShader.Proofs.GenerationError
import MaterialShader.Proofs.InputMember
import MaterialShader.Proofs.SplicedSection
import MaterialShader.Proofs.PropertyDeclaration
import MaterialShader.Proofs.IncludeStack
import MaterialShader.Proofs.TemplateDependency
import MaterialShader.Proofs.IndentedLine
import MaterialShader.Proofs.SplitLine
import MaterialShader.Proofs.FlattenedTemplate
import MaterialShader.Proofs.VariableName
import MaterialShader.Proofs.DeclaredVariable
import MaterialShader.Proofs.FieldPropagation
import MaterialShader.Proofs.VariantLimit
import MaterialShader.Proofs.TypeBound
import MaterialShader.Proofs.GraphAgreement
import MaterialShader.Proofs.GenerationAgreement
import MaterialShader.Proofs.GenerationEnd
import MaterialShader.Proofs.UpstreamGraph
import MaterialShader.Proofs.ConnectionOrder
import MaterialShader.Proofs.IncomingConnection
import MaterialShader.Proofs.OperandWidth
import MaterialShader.Proofs.LivePermutation
import MaterialShader.Proofs.TokenCut
import MaterialShader.Proofs.SplicedText
import MaterialShader.Proofs.DebugComment
import MaterialShader.Proofs.DecimalText
import MaterialShader.Proofs.KeywordDeclaration
import MaterialShader.Proofs.ConstantLiteral
import MaterialShader.Proofs.RepeatedField
